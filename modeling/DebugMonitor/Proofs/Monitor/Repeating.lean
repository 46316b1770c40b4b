import DebugMonitor.Proofs.Command.Refusal
import DebugMonitor.Proofs.Monitor.Relisting
import DebugMonitor.Proofs.Monitor.Visiting

/-!
# Rows that are typed back

A row of a mapping begins with the bounds of its page, in the form in which addresses are printed. What is
printed of an address reads back as the address (`Address.readNumber_toString`), so the bounds of a row
are arguments of a listing. `Target.Repeats` says that this listing shows the row again and nothing else,
and `runCommand_repeats` that this is so for every row of a mapping that a command shows.
-/

namespace DebugMonitor

open Paging Command

/-! ### The bounds of a row -/

/-- The characters in front of the first two spaces. -/
def Text.beforeGap : List Char → List Char
  | ' ' :: ' ' :: _ => []
  | c :: cs => c :: beforeGap cs
  | [] => []

theorem Text.beforeGap_append {cs : List Char} (solid : ' ' ∉ cs) (rest : List Char) :
    beforeGap (cs ++ ' ' :: ' ' :: rest) = cs := by
  induction cs with
  | nil => rfl
  | cons c cs ih =>
    rw [List.mem_cons, not_or] at solid
    rw [List.cons_append, beforeGap, ih solid.2]
    rintro _ rfl -
    exact solid.1 rfl

/-- The two tokens at the beginning of a row: the text in front of the first two spaces, cut at its
hyphen. -/
def rowTokens (row : String) : String × String :=
  let bounds := Text.beforeGap row.toList
  (String.ofList (bounds.takeWhile (· != '-')), String.ofList (bounds.dropWhile (· != '-')).tail)

/-- The line that lists what lies between the two tokens of a row. -/
def listingOf (row : String) : String :=
  "showmappings " ++ (rowTokens row).1 ++ " " ++ (rowTokens row).2

theorem MappingRow.exists_text_eq (row : MappingRow) :
    ∃ rest, row.text = s!"{row.page}-{behindPage row.page}  " ++ rest := by
  obtain ⟨page, mapping⟩ := row
  cases mapping with
  | some found => exact ⟨_, String.append_assoc ..⟩
  | none => exact ⟨_, rfl⟩

theorem rowTokens_text (row : MappingRow) :
    rowTokens row.text = (toString row.page, toString (behindPage row.page)) := by
  obtain ⟨rest, text⟩ := row.exists_text_eq
  let start := (toString row.page).toList
  let stop := (toString (behindPage row.page)).toList
  have chars : row.text.toList = (start ++ '-' :: stop) ++ ' ' :: ' ' :: rest.toList := by
    rw [text]
    simp [start, stop, toString]
  have solid : ' ' ∉ start ++ '-' :: stop := by
    have apart (a : VirtualAddress) : ' ' ∉ (toString a).toList :=
      fun space => nomatch Address.isBlank_of_mem_toString space
    simp [start, stop, apart]
  have plain : ∀ c ∈ start, (c != '-') = true :=
    fun c member => bne_iff_ne.2 (Address.ne_hyphen_of_mem_toString member)
  rw [rowTokens, chars, Text.beforeGap_append solid, List.takeWhile_append_of_pos plain,
    List.dropWhile_append_of_pos plain]
  simp [start, stop]

example : rowTokens "0x0000000000000000-0x0000000000001000  Not mapped" =
    ("0x0000000000000000", "0x0000000000001000") := by decide +kernel

/-- The words of a listing between two addresses. -/
theorem wordsOf_listing (a b : VirtualAddress) :
    Line.wordsOf ("showmappings " ++ toString a ++ " " ++ toString b) =
      ["showmappings", toString a, toString b] := by
  have name : ∀ c ∈ "showmappings".toList, Text.isBlank c = false := by
    simp [Text.isBlank]
  have solid (a : VirtualAddress) : ∀ c ∈ (toString a).toList, Text.isBlank c = false :=
    fun _ => Address.isBlank_of_mem_toString
  have space (rest : List Char) : ∀ c ∈ (' ' :: rest).head?, Text.isBlank c = true := by
    simp [Text.isBlank]
  have chars : ("showmappings " ++ toString a ++ " " ++ toString b).toList =
      "showmappings".toList ++ ' ' :: ((toString a).toList ++ ' ' :: ((toString b).toList ++ [])) := by
    simp
  rw [Line.wordsOf, chars, Text.words_append (by decide) name (space _), Text.words_blank_cons rfl,
    Text.words_append a.toList_toString_ne_nil (solid a) (space _), Text.words_blank_cons rfl,
    Text.words_append b.toList_toString_ne_nil (solid b) (by simp)]
  simp

/-- The bounds of a span, printed as they are, ask for a listing of it. -/
theorem asks_listing (span : PageSpan .size4K) :
    Asks ("showmappings " ++ toString span.start ++ " " ++ toString span.stop)
      (.showMappings span) := by
  have words := wordsOf_listing span.start span.stop
  have few : (Line.wordsOf ("showmappings " ++ toString span.start ++ " " ++
      toString span.stop)).length ≤ 15 := by
    rw [words]
    exact Nat.le_add_right 3 12
  obtain ⟨line, hline⟩ := Line.exists_ofString_eq_ok few
  have word (i : Nat) := Line.get?_of_ofString hline i
  simp only [words] at word
  have read : readSpan (toString span.start) (some (toString span.stop)) = .ok span := by
    rw [readSpan_eq_ok_iff]
    simp only [bounds?, Address.readNumber_toString]
    rfl
  refine asks_iff.2 ⟨line, .showMappings, hline, word 0, ?_⟩
  rw [Request.ofLine, word 1, word 2]
  change (do return Request.showMappings (← readSpan _ (some _))) = _
  rw [read]
  rfl

/-! ### Rows -/

/-- The listing that a row is typed back as is accepted and shows the row again, on every terminal that
takes it and whatever else the monitor is doing; the target stays as it is. -/
structure Target.Repeats (target : Target) (row : String) : Prop where
  accepted : ∃ span, Asks (listingOf row) (.showMappings span)
  shown : ∀ (m : Monitor) (t : Terminal), m.target = target →
    m.terminal.write (row ++ "\n") = (true, t) →
    ∃ m', m.runCommand (listingOf row) = .ok .proceed m' ∧ m'.terminal = t ∧ m'.target = target

variable {span : PageSpan .size4K} {page : VirtualAddress}

theorem rowTokens_pageRow (space : AddressSpace) (page : VirtualAddress) :
    rowTokens (pageRow space page) = (toString page, toString (behindPage page)) :=
  rowTokens_text ⟨page, _⟩

theorem asks_listingOf_pageRow (member : page ∈ span) (space : AddressSpace) :
    Asks (listingOf (pageRow space page)) (.showMappings (span.only page member)) := by
  show Asks ("showmappings " ++ (rowTokens _).1 ++ " " ++ (rowTokens _).2) _
  rw [rowTokens_pageRow]
  exact asks_listing (span.only page member)

theorem repeats_pageRow (member : page ∈ span) {target : Target} (reached : target.Reaches page) :
    target.Repeats (pageRow target.space page) := by
  have asks := asks_listingOf_pageRow member target.space
  refine ⟨⟨_, asks⟩, ?_⟩
  rintro m t rfl taken
  have rows : pageRows m.target.space (span.only page member).toList =
      pageRow m.target.space page ++ "\n" := by
    simp [pageRows, PageSpan.toList_only]
  have only : ∀ other ∈ span.only page member, m.target.Reaches other :=
    fun other inside => (PageSpan.mem_only_iff member).1 inside ▸ reached
  obtain ⟨journal, run⟩ := Monitor.exists_runCommand_showMappings_eq asks only (rows ▸ taken)
  exact ⟨_, run, rfl, rfl⟩

namespace Monitor

variable {m : Monitor} {text : String} {p : Permission}

/-- The rows of a listing can be typed back. -/
theorem exists_printsRows_showMappings (asks : Asks text (.showMappings span)) :
    ∃ rows, m.PrintsRows text rows Target.Repeats := by
  refine Action.visits_showPage.exists_printsRows asks (Action.execute_showMappings span)
    (fun _ => PageSpan.toNat_add_bytes_lt_of_mem)
    (fun page => (shows_pageRow m.target.space page).isLine) ?_
  intro page listed reached visited _
  rw [List.foldl_fixed]
  exact repeats_pageRow (PageSpan.mem_toList_iff.1 listed) reached

/-- The rows of mappings that are shown while permissions are set can be typed back afterwards. -/
theorem exists_printsRows_setPermission (asks : Asks text (.setPermission p span)) :
    ∃ rows, m.PrintsRows text rows fun target row => target.Repeats row ∨
      ∃ page ∈ span, m.target.space.resolve page = .ok none ∧
        row = s!"{page}: not mapped, skipped" := by
  have lines (page : VirtualAddress) : Text.IsLine (editRow p m.target.space page) :=
    (relists_editRow (List.mem_singleton_self page)).isLine.1
  refine (Action.visits_setPagePermission p).exists_printsRows asks
    (Action.execute_setPermission p span) (fun _ => PageSpan.toNat_add_bytes_lt_of_mem) lines ?_
  intro page listed reached visited covered
  have member := PageSpan.mem_toList_iff.1 listed
  have relists : Relists p m.target.space page (behindPage page) _ _ := relists_editRow covered
  -- The edits of other pages leave the row as it is, even where they share a leaf with this page.
  have agree := AddressSpace.agree_permitAll p m.target.space visited
  have repeats := repeats_pageRow member ((Target.reaches_iff_of_agree agree).2 reached)
  dsimp only at repeats
  generalize editRow p m.target.space page = row at relists ⊢
  generalize pageRow _ page = line at relists repeats
  cases relists with
  | mapped => exact .inl repeats
  | unmapped resolved => exact .inr ⟨page, member, resolved, rfl⟩

/-- Printed rows can be typed back. What is printed of an address reads back as the address. So the first
two tokens of a row that tells of a mapping are the arguments of a listing that shows this row again, in
the state that the line which showed the row leaves behind; a row that tells of none names a page that is
not mapped. -/
theorem runCommand_repeats (m : Monitor) (text : String) (span : PageSpan .size4K) :
    (∀ {space : Space} (a : Address space), Text.readNumber (toString a) = .ok a.word) ∧
    (Asks text (.showMappings span) → ∃ rows, m.PrintsRows text rows Target.Repeats) ∧
    ∀ p, Asks text (.setPermission p span) →
      ∃ rows, m.PrintsRows text rows fun target row => target.Repeats row ∨
        ∃ page ∈ span, m.target.space.resolve page = .ok none ∧
          row = s!"{page}: not mapped, skipped" :=
  ⟨Address.readNumber_toString, exists_printsRows_showMappings,
    fun _ => exists_printsRows_setPermission⟩

/-- Both rows of a listing of the first two pages can be typed back there, and so can those that are shown
when their permissions are set. -/
theorem runCommand_repeats_selfMapped :
    (∃ rows, selfMapped.PrintsRows "showmappings 0 0x2000" rows Target.Repeats ∧
      Text.unlines rows = Text.unlines
        ["0x0000000000000000-0x0000000000001000  0x0000000000000000  -R-P",
          "0x0000000000001000-0x0000000000002000  Not mapped"]) ∧
    ∃ rows, selfMapped.PrintsRows "setperm UW 0 0x2000" rows fun target row =>
      target.Repeats row ∨ ∃ page ∈ firstPages, selfMapped.target.space.resolve page = .ok none ∧
        row = s!"{page}: not mapped, skipped" := by
  have lists : Asks "showmappings 0 0x2000" (.showMappings firstPages) := by decide +kernel
  have sets : Asks "setperm UW 0 0x2000" (.setPermission ⟨true, true⟩ firstPages) := by decide +kernel
  have reached : ∀ page ∈ firstPages, selfMapped.target.Reaches page :=
    fun page _ => Target.reaches_of_physical rfl page
  obtain ⟨rows, printed⟩ := (runCommand_repeats selfMapped _ firstPages).2.1 lists
  refine ⟨⟨rows, printed, ?_⟩, (runCommand_repeats selfMapped _ firstPages).2.2 _ sets⟩
  obtain ⟨journal, ran⟩ := exists_runCommand_showMappings_eq (m := selfMapped) lists reached
    (Terminal.write_of_limit_eq_none rfl)
  have shown : "" ++ Text.unlines rows = "" ++ pageRows selfMapped.target.space firstPages.toList :=
    congrArg Terminal.shown <| (printed.terminal {}).symm.trans <|
      congrArg Monitor.terminal (after_of_ok ran)
  rw [String.empty_append, String.empty_append] at shown
  rw [shown]
  decide +kernel

end Monitor

end DebugMonitor
