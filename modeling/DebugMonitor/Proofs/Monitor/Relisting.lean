import DebugMonitor.Proofs.Monitor.Showing

/-!
# Listing a span after its permissions were set

While the permissions of a span are set, the row of a page is shown before the pages behind it are
edited. A listing shows all rows after the last edit. Pages may share a leaf, and the leaf of one may be
a table of another, but no edit changes where a page lies, and all edits set the same permissions. So
the rows agree page by page; `Relists` says how.
-/

namespace DebugMonitor

open Paging Command

/-- The line shown for a page when its permissions are set, and the line of a listing afterwards. Both
tell where the page lay before, and with which permissions it is mapped now. -/
inductive Relists (p : Permission) (space : AddressSpace) (page stop : VirtualAddress) :
    String → String → Prop where
  | mapped (pa : PhysicalAddress) (line : String) :
      space.resolve page = .ok (some pa) →
      line = s!"{page}-{stop}  {pa}  {permissionColumns p.user p.writable}" →
      Relists p space page stop line line
  | unmapped :
      space.resolve page = .ok none →
      Relists p space page stop s!"{page}: not mapped, skipped" s!"{page}-{stop}  Not mapped"

variable {p : Permission} {space : AddressSpace} {page stop : VirtualAddress}
variable {pages : List VirtualAddress}

theorem Relists.isLine {row line : String} (h : Relists p space page stop row line) :
    Text.IsLine row ∧ Text.IsLine line := by
  cases h with
  | mapped pa _ _ same =>
    have whole := isLine_mapped page stop pa p.user p.writable
    exact ⟨same ▸ whole, same ▸ whole⟩
  | unmapped => exact ⟨page.isLine_toString.append (by decide), isLine_notMapped page stop⟩

/-- Setting the permissions of a leaf moves nothing. -/
theorem place_apply (p : Permission) (leaf : Leaf) (va : VirtualAddress) :
    Leaf.place { leaf with entry := p.apply leaf.entry } va = leaf.place va := by
  simp only [Leaf.place, (Entry.agree_apply p leaf.entry).physicalAddress_eq]

/-- The permission columns of an entry whose permissions were set show these permissions. -/
theorem columns_apply {e : Entry} (present : e.get .present = true) :
    MappingRow.columns (p.apply e) = permissionColumns p.user p.writable := by
  have there : (p.apply e).get .present = true := by
    rw [Entry.get, Entry.testBit_apply]
    exact present
  rw [MappingRow.columns_eq there, Entry.testBit_apply, Entry.testBit_apply]
  rfl

namespace Monitor

/-- The row shown while the permissions of some pages are set is the row of a listing after the last of
them was set. -/
theorem relists_editRow (member : page ∈ pages) :
    Relists p space page (behindPage page) (editRow p space page)
      (pageRow (space.permitAll p pages) page) := by
  have after := (AddressSpace.walk_permitAll_of_mem member : (space.permitAll p pages).walk page = _)
  cases hwalk : space.walk page with
  | ok leaf =>
    rw [hwalk] at after
    rw [pageRow_of_walk_eq_ok after, editRow_of_walk_eq_ok hwalk, place_apply]
    refine .mapped (leaf.place page) _ (AddressSpace.resolve_of_walk_eq_ok hwalk) ?_
    rw [MappingRow.text_some, columns_apply (AddressSpace.walk_eq_ok hwalk).2]
  | error gap =>
    rw [hwalk] at after
    rw [pageRow_of_walk_eq_error after, MappingRow.text_none, editRow_of_walk_eq_error hwalk]
    exact .unmapped (AddressSpace.resolve_of_walk_eq_error hwalk)

variable {text list : String} {span : PageSpan .size4K} {m : Monitor}

theorem editRows_eq_unlines (p : Permission) (space : AddressSpace) (pages : List VirtualAddress) :
    editRows p space pages = Text.unlines (pages.map (editRow p space)) := by
  induction pages with
  | nil => simp [editRows]
  | cons page rest ih => simp [editRows, ih]

/-- Setting the permissions of a span and listing it. Both show one line for each page, in ascending
order, and the lines of a page agree. This holds on every terminal that takes them. -/
theorem runCommand_setPermission_showMappings (asks : Asks text (.setPermission p span))
    (lists : Asks list (.showMappings span)) (reached : ∀ page ∈ span, m.target.Reaches page) :
    ∃ rows lines : List String,
      rows.length = (span.stop.word.toNat - span.start.word.toNat) / 4096 ∧
      lines.length = rows.length ∧ (∀ line ∈ rows ++ lines, Text.IsLine line) ∧
      (∀ i < rows.length, ∃ page stop row line,
        page.word.toNat = span.start.word.toNat + 4096 * i ∧
        stop.word.toNat = page.word.toNat + 4096 ∧
        rows[i]? = some row ∧ lines[i]? = some line ∧
        Relists p m.target.space page stop row line) ∧
      ∀ t t', m.terminal.write (Text.unlines rows) = (true, t) →
        t.write (Text.unlines lines) = (true, t') →
        ∃ m₁ m₂, m.runCommand text = .ok .proceed m₁ ∧ m₁.terminal = t ∧
          m₁.runCommand list = .ok .proceed m₂ ∧ m₂.terminal = t' := by
  obtain ⟨m₁, ran, edited, shown⟩ := runCommand_edits_shown (m := m.withTerminal {}) asks rfl reached
  have space : m₁.target.space = m.target.space.permitAll p span.toList :=
    congrArg Target.space edited.target
  have agree : ∀ page ∈ span.toList, Relists p m.target.space page (behindPage page)
      (editRow p m.target.space page) (pageRow m₁.target.space page) :=
    fun page member => space ▸ relists_editRow member
  refine ⟨span.toList.map (editRow p m.target.space), span.toList.map (pageRow m₁.target.space),
    (List.length_map ..).trans span.length_toList, by simp only [List.length_map], ?_, ?_, ?_⟩
  · intro line member
    obtain inside | inside := List.mem_append.1 member
    · obtain ⟨page, here, rfl⟩ := List.mem_map.1 inside
      exact (agree page here).isLine.1
    · obtain ⟨page, here, rfl⟩ := List.mem_map.1 inside
      exact (agree page here).isLine.2
  · intro i inside
    rw [List.length_map] at inside
    obtain ⟨page, member, here, place⟩ := PageSpan.exists_getElem?_toList inside
    refine ⟨page, behindPage page, editRow p m.target.space page, pageRow m₁.target.space page,
      place, Word.toNat_add_of_lt (PageSpan.toNat_add_bytes_lt member), ?_, ?_,
      agree page (PageSpan.mem_toList_iff.2 member)⟩
    all_goals simp only [List.getElem?_map, here, Option.map_some]
  · intro t t' taken taken'
    have shown₁ : m₁.terminal.shown = Text.unlines (span.toList.map (editRow p m.target.space)) := by
      rw [← editRows_eq_unlines]
      exact shown.trans String.empty_append
    have first : m.runCommand text = .ok .proceed (m₁.withTerminal t) :=
      runCommand_eq_of_taken ran (shown₁ ▸ taken)
    have reached₁ : ∀ page ∈ span, m₁.target.Reaches page :=
      fun page member => edited.reaches (reached page member)
    obtain ⟨journal, second⟩ :=
      exists_runCommand_showMappings_eq (m := m₁.withTerminal t) lists reached₁ taken'
    exact ⟨_, _, first, rfl, second, rfl⟩

/-- Users may write to the first page afterwards, and both commands say so; the second page is not
mapped. -/
theorem runCommand_setPermission_showMappings_selfMapped :
    ∃ m₁ m₂, selfMapped.runCommand "setperm UW 0 0x2000" = .ok .proceed m₁ ∧
      m₁.runCommand "showmappings 0 0x2000" = .ok .proceed m₂ ∧
      m₂.terminal.shown = Text.unlines
        ["0x0000000000000000-0x0000000000001000  0x0000000000000000  URWP",
          "0x0000000000001000: not mapped, skipped",
          "0x0000000000000000-0x0000000000001000  0x0000000000000000  URWP",
          "0x0000000000001000-0x0000000000002000  Not mapped"] := by
  have asks : Asks "setperm UW 0 0x2000" (.setPermission ⟨true, true⟩ firstPages) := by decide +kernel
  have lists : Asks "showmappings 0 0x2000" (.showMappings firstPages) := by decide +kernel
  have reached : ∀ page ∈ firstPages, selfMapped.target.Reaches page :=
    fun page _ => Target.reaches_of_physical rfl page
  obtain ⟨rows, lines, count, count', -, each, run⟩ :=
    runCommand_setPermission_showMappings (m := selfMapped) asks lists reached
  obtain ⟨row₀, row₁, rfl⟩ := List.length_eq_two.1 count
  obtain ⟨line₀, line₁, rfl⟩ := List.length_eq_two.1 count'
  obtain ⟨⟨page₀⟩, ⟨stop₀⟩, _, _, at₀, up₀, here₀, there₀, first⟩ := each 0 Nat.zero_lt_two
  obtain ⟨⟨page₁⟩, ⟨stop₁⟩, _, _, at₁, up₁, here₁, there₁, second⟩ := each 1 Nat.one_lt_two
  cases here₀
  cases there₀
  cases here₁
  cases there₁
  obtain rfl : page₀ = 0 := UInt64.toNat_inj.1 at₀
  obtain rfl : page₁ = 0x1000 := UInt64.toNat_inj.1 at₁
  obtain rfl : stop₀ = 0x1000 := UInt64.toNat_inj.1 up₀
  obtain rfl : stop₁ = 0x2000 := UInt64.toNat_inj.1 up₁
  obtain ⟨m₁, m₂, ran, -, ran', shown⟩ := run _ _ (Terminal.write_of_limit_eq_none rfl)
    (Terminal.write_of_limit_eq_none rfl)
  have mapped : selfMapped.target.space.resolve ⟨0⟩ = .ok (some ⟨0⟩) := rfl
  have unmapped : selfMapped.target.space.resolve ⟨0x1000⟩ = .ok none := rfl
  obtain ⟨pa, _, resolved, rfl⟩ | gone := first
  · obtain ⟨_, _, resolved', -⟩ | - := second
    · cases unmapped.symm.trans resolved'
    · cases mapped.symm.trans resolved
      refine ⟨m₁, m₂, ran, ran', ?_⟩
      rw [shown]
      decide +kernel
  · cases mapped.symm.trans gone

end Monitor

end DebugMonitor
