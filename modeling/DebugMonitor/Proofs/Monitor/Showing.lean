import DebugMonitor.Proofs.Monitor.Editing
import DebugMonitor.Proofs.Paging.Architecture
import DebugMonitor.Proofs.Text.Lines

/-!
# Showing the mappings of a span

A listing has one line for each page of its span. `Shows` says which line that is, by the rules of the
architecture: it names the page, and then where the page lies and what may be done with it, or that it
is not mapped.

`exists_showPage_eq` is the step for one page and `exists_forM_showPage_eq` the run over a list of them.
A listing only looks, so the monitor after it is known but for the journal, and
`runCommand_showMappings` gives it on every terminal that takes the lines.
-/

namespace DebugMonitor

open Paging Command

/-- The permission columns of a page that is mapped. -/
def permissionColumns (user writable : Bool) : String :=
  (if user then "U" else "-") ++ "R" ++ (if writable then "W" else "-") ++ "P"

theorem MappingRow.columns_eq {e : Entry} (present : e.get .present = true) :
    columns e = permissionColumns (Word.testBit e.bits 2) (Word.testBit e.bits 1) := by
  simp only [columns, present]
  rfl

/-- The line that shows a page. The page ends in front of `stop`; whether it is mapped, and by which
entry, is what its walk comes to by the rules of the architecture. -/
inductive Shows (space : AddressSpace) (page stop : VirtualAddress) : String → Prop where
  | mapped (leaf : Leaf) (pa : PhysicalAddress) (columns : String) :
      Ends space.memory page .pml4 space.root.word.toNat (.ok leaf) →
      space.resolve page = .ok (some pa) →
      columns = permissionColumns (Word.testBit leaf.entry.bits 2) (Word.testBit leaf.entry.bits 1) →
      Shows space page stop s!"{page}-{stop}  {pa}  {columns}"
  | unmapped (gap : Gap) :
      Ends space.memory page .pml4 space.root.word.toNat (.error gap) →
      Shows space page stop s!"{page}-{stop}  Not mapped"

/-- The address behind a page. -/
def behindPage (page : VirtualAddress) : VirtualAddress :=
  ⟨page.word + PageSize.size4K.bytes⟩

/-- The row that shows one page. -/
def pageRow (space : AddressSpace) (page : VirtualAddress) : String :=
  MappingRow.text
    ⟨page, (space.walk page).toOption.map fun leaf => (leaf.place page, leaf.entry)⟩

theorem MappingRow.text_some (page : VirtualAddress) (pa : PhysicalAddress) (e : Entry) :
    text ⟨page, some (pa, e)⟩ = s!"{page}-{behindPage page}  {pa}  {columns e}" := by
  simp only [text, String.append_assoc]
  rfl

theorem MappingRow.text_none (page : VirtualAddress) :
    text ⟨page, none⟩ = s!"{page}-{behindPage page}  Not mapped" :=
  String.append_assoc ..

variable {space : AddressSpace} {page : VirtualAddress}

theorem pageRow_of_walk_eq_ok {leaf : Leaf} (h : space.walk page = .ok leaf) :
    pageRow space page = MappingRow.text ⟨page, some (leaf.place page, leaf.entry)⟩ := by
  rw [pageRow, h]
  rfl

theorem pageRow_of_walk_eq_error {gap : Gap} (h : space.walk page = .error gap) :
    pageRow space page = MappingRow.text ⟨page, none⟩ := by
  rw [pageRow, h]
  rfl

theorem shows_pageRow (space : AddressSpace) (page : VirtualAddress) :
    Shows space page (behindPage page) (pageRow space page) := by
  cases hwalk : space.walk page with
  | ok leaf =>
    rw [pageRow_of_walk_eq_ok hwalk, MappingRow.text_some]
    exact .mapped leaf _ _ ((space.walk_eq_iff_ends page _).1 hwalk)
      (AddressSpace.resolve_of_walk_eq_ok hwalk)
      (MappingRow.columns_eq (AddressSpace.walk_eq_ok hwalk).2)
  | error gap =>
    rw [pageRow_of_walk_eq_error hwalk, MappingRow.text_none]
    exact .unmapped gap ((space.walk_eq_iff_ends page _).1 hwalk)

theorem isLine_permissionColumns (user writable : Bool) :
    Text.IsLine (permissionColumns user writable) := by
  cases user <;> cases writable <;> decide

theorem isLine_mapped (page stop : VirtualAddress) (pa : PhysicalAddress) (user writable : Bool) :
    Text.IsLine s!"{page}-{stop}  {pa}  {permissionColumns user writable}" := by
  have bounds : Text.IsLine s!"{page}-{stop}" :=
    (page.isLine_toString.append (by decide)).append stop.isLine_toString
  have place : Text.IsLine s!"{page}-{stop}  {pa}" :=
    (bounds.append (by decide)).append pa.isLine_toString
  exact (place.append (by decide)).append (isLine_permissionColumns user writable)

theorem isLine_notMapped (page stop : VirtualAddress) :
    Text.IsLine s!"{page}-{stop}  Not mapped" :=
  ((page.isLine_toString.append (by decide)).append stop.isLine_toString).append (by decide)

theorem Shows.isLine {stop : VirtualAddress} {line : String} (h : Shows space page stop line) :
    Text.IsLine line := by
  cases h with
  | mapped leaf pa columns _ _ same => exact same ▸ isLine_mapped page stop pa _ _
  | unmapped => exact isLine_notMapped page stop

/-- The lines of a listing. -/
def pageRows (space : AddressSpace) (pages : List VirtualAddress) : String :=
  Text.unlines (pages.map (pageRow space))

namespace Monitor

/-- The monitor after several pages were looked up and shown. -/
def listed (m : Monitor) (pages : List VirtualAddress) : Monitor :=
  (m.recordAll (pages.map .lookup)).say (pageRows m.target.space pages)

@[simp] theorem listed_nil (m : Monitor) : m.listed [] = m := by
  simp [listed, pageRows]

theorem listed_cons (m : Monitor) (page : VirtualAddress) (pages : List VirtualAddress) :
    m.listed (page :: pages) =
      (((m.recordAll [.lookup page]).say (pageRow m.target.space page ++ "\n")).listed pages) := by
  have rows : pageRows m.target.space (page :: pages) =
      pageRow m.target.space page ++ "\n" ++ pageRows m.target.space pages :=
    Text.unlines_cons ..
  have marks : (page :: pages).map Effect.lookup = [.lookup page] ++ pages.map .lookup := rfl
  rw [listed, rows, marks, ← recordAll_recordAll, ← say_say]
  rfl

end Monitor

namespace Action

variable {m m₁ : Monitor} {page : VirtualAddress} {pages : List VirtualAddress}

theorem showPage_eq_printLine {found : Option Leaf} {row : MappingRow} {text : String}
    (looked : lookup page m = .ok found m₁) (made : MappingRow.ofLeaf? page found = .ok row)
    (rendered : row.render = .ok text) :
    showPage page m = printLine text (m₁.note ⟨.trace, text⟩) :=
  (run_bind _ looked).trans <| (run_bind _ (run_ofExcept made _)).trans <|
    (run_bind _ (run_ofExcept rendered _)).trans (run_bind _ (run_note _ _ _))

/-- Showing a page comes down to printing its row, once it was looked up. -/
theorem exists_showPage_eq_printLine (reached : m.target.Reaches page)
    (room : page.word.toNat + PageSize.size4K.bytes.toNat < UInt64.size) :
    ∃ journal, ∀ t, showPage page (m.withTerminal t) =
      printLine (pageRow m.target.space page)
        ({ m.recordAll [.lookup page] with journal }.withTerminal t) := by
  have looked (t : Terminal) := lookup_eq page (m.withTerminal t)
  have walked (t : Terminal) : (m.withTerminal t).target.walk page =
      .ok (m.target.space.walk page) := reached.walk_eq
  simp only [walked] at looked
  cases hwalk : m.target.space.walk page with
  | ok leaf =>
    simp only [hwalk] at looked
    have rendered : MappingRow.render ⟨page, some (leaf.place page, leaf.entry)⟩ =
        .ok (pageRow m.target.space page) := by
      rw [pageRow_of_walk_eq_ok hwalk]
      exact MappingRow.render_eq_ok room
    refine ⟨m.journal.push ⟨.trace, pageRow m.target.space page⟩, fun t => ?_⟩
    exact showPage_eq_printLine (looked t) (MappingRow.ofLeaf_eq_ok page leaf) rendered
  | error gap =>
    simp only [hwalk] at looked
    have rendered : MappingRow.render ⟨page, none⟩ = .ok (pageRow m.target.space page) := by
      rw [pageRow_of_walk_eq_error hwalk]
      exact MappingRow.render_eq_ok room
    refine ⟨(m.journal.push (gap.notice page)).push ⟨.trace, pageRow m.target.space page⟩, fun t => ?_⟩
    exact showPage_eq_printLine (looked t) rfl rendered

/-- A page is looked up, and its row is shown. -/
theorem exists_showPage_eq (unlimited : m.Unlimited) (reached : m.target.Reaches page)
    (room : page.word.toNat + PageSize.size4K.bytes.toNat < UInt64.size) :
    ∃ journal, showPage page m = .ok ()
      { (m.recordAll [.lookup page]).say (pageRow m.target.space page ++ "\n") with journal } := by
  obtain ⟨journal, shown⟩ := exists_showPage_eq_printLine reached room
  exact ⟨journal, (shown m.terminal).trans (run_print (by exact unlimited) _)⟩

/-- Pages are looked up and shown one after another. -/
theorem exists_forM_showPage_eq (unlimited : m.Unlimited)
    (reached : ∀ page ∈ pages, m.target.Reaches page)
    (room : ∀ page ∈ pages, page.word.toNat + PageSize.size4K.bytes.toNat < UInt64.size) :
    ∃ journal, pages.forM showPage m = .ok () { m.listed pages with journal } := by
  induction pages generalizing m with
  | nil => exact ⟨m.journal, by rw [m.listed_nil]; rfl⟩
  | cons page rest ih =>
    rw [List.forall_mem_cons] at reached room
    obtain ⟨journal₁, first⟩ := exists_showPage_eq unlimited reached.1 room.1
    -- The first page left the target alone, so the others are shown as they would have been.
    obtain ⟨journal, run⟩ := ih
      (m := { (m.recordAll [.lookup page]).say (pageRow m.target.space page ++ "\n") with
        journal := journal₁ }) unlimited reached.2 room.2
    refine ⟨journal, (run_bind _ first).trans (run.trans ?_)⟩
    rw [m.listed_cons]
    rfl

theorem exists_showMappings_eq {span : PageSpan .size4K} (unlimited : m.Unlimited)
    (reached : ∀ page ∈ span, m.target.Reaches page) :
    ∃ journal, showMappings span m = .ok () { m.listed span.toList with journal } := by
  rw [showMappings, forPages_pages]
  exact exists_forM_showPage_eq unlimited
    (fun page member => reached page (PageSpan.mem_toList_iff.1 member))
    (fun _ => PageSpan.toNat_add_bytes_lt_of_mem)

end Action

namespace Monitor

variable {text : String} {span : PageSpan .size4K} {m : Monitor}

/-- A listing shows the rows of its pages on every terminal that takes them. -/
theorem exists_runCommand_showMappings_eq {t : Terminal} (asks : Asks text (.showMappings span))
    (reached : ∀ page ∈ span, m.target.Reaches page)
    (taken : m.terminal.write (pageRows m.target.space span.toList) = (true, t)) :
    ∃ journal, m.runCommand text = .ok .proceed
      { (m.recordAll (span.toList.map .lookup)).withTerminal t with journal } := by
  refine exists_runCommand_eq_of_taken asks (fun journal => ?_) taken
  obtain ⟨journal', run⟩ :=
    Action.exists_showMappings_eq (m := { m.withTerminal {} with journal }) rfl reached
  exact ⟨journal', Action.run_bind _ run⟩

/-- What a listing does. It has one line for each page of the span, in ascending order, and the line of a
page shows the page as the rules of the architecture say. Each page is looked up once, in the same order;
nothing else is read or written, and nothing changes but the terminal and the journal. -/
theorem runCommand_showMappings (asks : Asks text (.showMappings span))
    (reached : ∀ page ∈ span, m.target.Reaches page) :
    ∃ (pages : List VirtualAddress) (lines : List String),
      pages.length = (span.stop.word.toNat - span.start.word.toNat) / 4096 ∧
      lines.length = pages.length ∧ (∀ line ∈ lines, Text.IsLine line) ∧
      (∀ i < pages.length, ∃ page stop line,
        pages[i]? = some page ∧ page.word.toNat = span.start.word.toNat + 4096 * i ∧
        stop.word.toNat = page.word.toNat + 4096 ∧
        lines[i]? = some line ∧ Shows m.target.space page stop line) ∧
      ∀ t, m.terminal.write (Text.unlines lines) = (true, t) →
        ∃ journal, m.runCommand text = .ok .proceed
          { (m.recordAll (pages.map .lookup)).withTerminal t with journal } := by
  refine ⟨span.toList, span.toList.map (pageRow m.target.space), span.length_toList,
    List.length_map .., ?_, ?_, fun t => exists_runCommand_showMappings_eq asks reached⟩
  · intro line member
    obtain ⟨page, -, rfl⟩ := List.mem_map.1 member
    exact (shows_pageRow m.target.space page).isLine
  · intro i inside
    obtain ⟨page, member, here, place⟩ := PageSpan.exists_getElem?_toList inside
    refine ⟨page, behindPage page, pageRow m.target.space page, here, place,
      Word.toNat_add_of_lt (PageSpan.toNat_add_bytes_lt member), ?_, shows_pageRow _ page⟩
    rw [List.getElem?_map, here]
    rfl

/-- Both pages are looked up there. The first is mapped for the kernel to read, the second is not
mapped. -/
theorem runCommand_showMappings_selfMapped :
    ∃ m', selfMapped.runCommand "showmappings 0 0x2000" = .ok .proceed m' ∧
      m'.target = selfMapped.target ∧ m'.trace.toList = [.lookup ⟨0⟩, .lookup ⟨0x1000⟩] ∧
      m'.terminal.shown = Text.unlines
        ["0x0000000000000000-0x0000000000001000  0x0000000000000000  -R-P",
          "0x0000000000001000-0x0000000000002000  Not mapped"] := by
  have asks : Asks "showmappings 0 0x2000" (.showMappings firstPages) := by decide +kernel
  have reached : ∀ page ∈ firstPages, selfMapped.target.Reaches page :=
    fun page _ => Target.reaches_of_physical rfl page
  obtain ⟨pages, lines, count, count', -, each, run⟩ :=
    runCommand_showMappings (m := selfMapped) asks reached
  obtain ⟨first, second, rfl⟩ := List.length_eq_two.1 count
  obtain ⟨line₀, line₁, rfl⟩ := List.length_eq_two.1 count'
  obtain ⟨⟨page₀⟩, ⟨stop₀⟩, _, here₀, at₀, up₀, there₀, shows₀⟩ := each 0 Nat.zero_lt_two
  obtain ⟨⟨page₁⟩, ⟨stop₁⟩, _, here₁, at₁, up₁, there₁, shows₁⟩ := each 1 Nat.one_lt_two
  cases here₀
  cases there₀
  cases here₁
  cases there₁
  obtain rfl : page₀ = 0 := UInt64.toNat_inj.1 at₀
  obtain rfl : page₁ = 0x1000 := UInt64.toNat_inj.1 at₁
  obtain rfl : stop₀ = 0x1000 := UInt64.toNat_inj.1 up₀
  obtain rfl : stop₁ = 0x2000 := UInt64.toNat_inj.1 up₁
  obtain ⟨journal, ran⟩ := run _ (Terminal.write_of_limit_eq_none rfl)
  have walk₀ : selfMapped.target.space.walk ⟨0⟩ = .ok ⟨0, ⟨1⟩, .size4K⟩ := rfl
  have walk₁ : selfMapped.target.space.walk ⟨0x1000⟩ = .error ⟨.pt, 1⟩ := rfl
  have resolved₀ : selfMapped.target.space.resolve ⟨0⟩ = .ok (some ⟨0⟩) := rfl
  cases shows₀ with
  | unmapped gap ends => cases walk₀.symm.trans ((AddressSpace.walk_eq_iff_ends _ _ _).2 ends)
  | mapped leaf pa columns ends resolved same =>
    cases walk₀.symm.trans ((AddressSpace.walk_eq_iff_ends _ _ _).2 ends)
    cases resolved₀.symm.trans resolved
    subst same
    cases shows₁ with
    | mapped leaf pa columns ends =>
      cases walk₁.symm.trans ((AddressSpace.walk_eq_iff_ends _ _ _).2 ends)
    | unmapped gap ends =>
      refine ⟨_, ran, rfl, rfl, String.empty_append.trans ?_⟩
      decide +kernel

end Monitor

end DebugMonitor
