import DebugMonitor.Proofs.Command.Reading
import DebugMonitor.Proofs.Monitor.Conduct
import DebugMonitor.Proofs.Monitor.Transcript
import DebugMonitor.Proofs.Monitor.Unlimited
import DebugMonitor.Proofs.Paging.Edit
import DebugMonitor.Proofs.Paging.Resolution

/-!
# Editing the permissions of a span

On a terminal that takes everything, `setPermission` comes to its end and its effect is known
exactly. `Edited` relates the monitor before and after some pages were edited: the address space is
the one that `permitAll` says, and the trace shows one lookup for each page, followed by a flush if
the page is mapped. Both speak of the walks before the first edit, because no edit changes a walk.

`exists_setPagePermission_eq` is the step for one page. It holds on every terminal: all that is left
to do when the row of the page is tried is to print it. `exists_forM_setPagePermission_eq` is the run over
a list of pages, and `runCommand_setPermission` unfolds the relation for a whole line.
-/

namespace DebugMonitor

open Paging Command

/-- Every table that the walk of an address reads can be reached. Whoever gives a target its root
promises this; physical access reaches all tables. -/
def Target.Reaches (t : Target) (va : VirtualAddress) : Prop :=
  ∀ table ∈ t.space.route va, t.tableAccess.reach table.2 = .ok ()

theorem Target.reaches_of_physical {t : Target} (h : t.tableAccess = .physical)
    (va : VirtualAddress) : t.Reaches va := by
  intro table _
  rw [h]
  rfl

/-- Spaces that agree take a walk to the same tables. -/
theorem Target.reaches_iff_of_agree {t : Target} {space : AddressSpace} (h : t.space.Agree space)
    {va : VirtualAddress} : ({ t with space } : Target).Reaches va ↔ t.Reaches va := by
  rw [Reaches, Reaches, h.route_eq]

theorem Target.Reaches.walk_eq {t : Target} {va : VirtualAddress} (h : t.Reaches va) :
    t.walk va = .ok (t.space.walk va) :=
  walk_eq_ok_iff.2 ⟨h, rfl⟩

namespace MappingRow

/-- The text of a row. -/
def text (row : MappingRow) : String :=
  let stop : VirtualAddress := ⟨row.page.word + PageSize.size4K.bytes⟩
  let bounds := s!"{row.page}-{stop}  "
  match row.mapping with
  | some (pa, e) => bounds ++ s!"{pa}  " ++ columns e
  | none => bounds ++ "Not mapped"

/-- A row can be shown when there is an address after the last byte of its page. -/
theorem render_eq_ok {row : MappingRow}
    (room : row.page.word.toNat + PageSize.size4K.bytes.toNat < UInt64.size) :
    row.render = .ok row.text := by
  have stop : row.page.add PageSize.size4K.bytes = .ok ⟨row.page.word + PageSize.size4K.bytes⟩ :=
    Address.add_eq_ok_iff.2 (Word.toNat_add_of_lt room)
  obtain ⟨page, mapping⟩ := row
  simp only [render, stop, text]
  cases mapping <;> rfl

theorem ofLeaf_eq_ok (page : VirtualAddress) (leaf : Leaf) :
    ofLeaf page leaf = .ok ⟨page, some (leaf.place page, leaf.entry)⟩ := by
  rw [ofLeaf, leaf.resolve_eq]
  rfl

end MappingRow

namespace Monitor

/-- The row that tells of editing one page. -/
def editRow (p : Permission) (space : AddressSpace) (page : VirtualAddress) : String :=
  match space.walk page with
  | .ok leaf =>
    let leaf := { leaf with entry := p.apply leaf.entry }
    MappingRow.text ⟨page, some (leaf.place page, leaf.entry)⟩
  | .error _ => s!"{page}: not mapped, skipped"

/-- The rows of several pages, each a line of its own. -/
def editRows (p : Permission) (space : AddressSpace) : List VirtualAddress → String
  | [] => ""
  | page :: pages => editRow p space page ++ "\n" ++ editRows p space pages

/-- What the trace shows of editing one page. -/
def editMarks (space : AddressSpace) (page : VirtualAddress) : List Effect :=
  match space.walk page with
  | .ok _ => [.lookup page, .flush page]
  | .error _ => [.lookup page]

section

variable {p : Permission} {space : AddressSpace} {page : VirtualAddress}

theorem editRow_of_walk_eq_ok {leaf : Leaf} (h : space.walk page = .ok leaf) :
    editRow p space page = MappingRow.text
      ⟨page, some (Leaf.place { leaf with entry := p.apply leaf.entry } page, p.apply leaf.entry)⟩ := by
  rw [editRow, h]

theorem editRow_of_walk_eq_error {gap : Gap} (h : space.walk page = .error gap) :
    editRow p space page = s!"{page}: not mapped, skipped" := by
  rw [editRow, h]

theorem editMarks_of_walk_eq_ok {leaf : Leaf} (h : space.walk page = .ok leaf) :
    editMarks space page = [.lookup page, .flush page] := by
  rw [editMarks, h]

theorem editMarks_of_walk_eq_error {gap : Gap} (h : space.walk page = .error gap) :
    editMarks space page = [.lookup page] := by
  rw [editMarks, h]

end

theorem lookup_mem_editMarks {space : AddressSpace} {page va : VirtualAddress} :
    .lookup va ∈ editMarks space page ↔ va = page := by
  rw [editMarks]
  cases space.walk page <;> simp

theorem flush_mem_editMarks {space : AddressSpace} {page va : VirtualAddress} :
    .flush va ∈ editMarks space page ↔ va = page ∧ ∃ slot, space.LeafAt page slot := by
  rw [editMarks]
  cases hwalk : space.walk page <;> simp [AddressSpace.LeafAt, hwalk]

/-- The second monitor is the first one after the pages were edited, one after another. -/
structure Edited (p : Permission) (pages : List VirtualAddress) (m m' : Monitor) : Prop where
  target : m'.target = { m.target with space := m.target.space.permitAll p pages }
  trace : m'.trace.toList = m.trace.toList ++ pages.flatMap (editMarks m.target.space)
  unlimited : m'.Unlimited
  options : m'.options = m.options
  greeted : m'.greeted = m.greeted
  context : m'.context = m.context

variable {p : Permission} {page : VirtualAddress} {pages : List VirtualAddress}
variable {m m₁ m₂ : Monitor}

theorem editMarks_of_agree {s t : AddressSpace} (h : s.Agree t) : editMarks t = editMarks s := by
  funext page
  rw [editMarks, editMarks, h.walk_eq]
  cases s.walk page <;> rfl

/-- The row of a page shows the permissions that are set, so it is the same before and after edits
that set them. -/
theorem editRow_of_agree {s t : AddressSpace} (h : s.Agree t) : editRow p t = editRow p s := by
  funext page
  rw [editRow, editRow, h.walk_eq]
  cases hwalk : s.walk page with
  | error gap => rfl
  | ok leaf =>
    have agree : leaf.entry.Agree (t.memory.entry leaf.slot) := by
      rw [(AddressSpace.walk_eq_ok hwalk).1]
      exact h.memory leaf.slot
    simp only [Except.map, agree.apply_eq p]

theorem Edited.nil (unlimited : m.Unlimited) : Edited p [] m m :=
  ⟨rfl, (List.append_nil _).symm, unlimited, rfl, rfl, rfl⟩

theorem editRows_of_agree {s t : AddressSpace} (h : s.Agree t) : editRows p t = editRows p s := by
  funext pages
  induction pages with
  | nil => rfl
  | cons page pages ih => rw [editRows, editRows, editRow_of_agree h, ih]

theorem editRows_append (space : AddressSpace) (pages pages' : List VirtualAddress) :
    editRows p space (pages ++ pages') = editRows p space pages ++ editRows p space pages' := by
  induction pages with
  | nil => rw [List.nil_append, editRows, String.empty_append]
  | cons page pages ih =>
    rw [List.cons_append, editRows, editRows, ih]
    exact (String.append_assoc ..).symm

theorem Edited.agree (h : Edited p pages m m₁) : m.target.space.Agree m₁.target.space := by
  rw [h.target]
  exact AddressSpace.agree_permitAll p m.target.space pages

/-- The edits of some pages are followed by the edits of others. -/
theorem Edited.append {pages' : List VirtualAddress} (first : Edited p pages m m₁)
    (rest : Edited p pages' m₁ m₂) : Edited p (pages ++ pages') m m₂ := by
  have space : m₁.target.space.permitAll p pages' = m.target.space.permitAll p (pages ++ pages') := by
    rw [first.target, AddressSpace.permitAll, AddressSpace.permitAll, AddressSpace.permitAll,
      List.foldl_append]
  refine ⟨?_, ?_, rest.unlimited, rest.options.trans first.options,
    rest.greeted.trans first.greeted, rest.context.trans first.context⟩
  · rw [rest.target, space, first.target]
  · rw [rest.trace, editMarks_of_agree first.agree, first.trace, List.flatMap_append,
      List.append_assoc]

/-- A word that an edit changed is a leaf of one of its pages. -/
theorem Edited.exists_leafAt {slot : Nat} (h : Edited p pages m m₁)
    (changed : m₁.target.space.memory.word slot ≠ m.target.space.memory.word slot) :
    ∃ page ∈ pages, m.target.space.LeafAt page slot := by
  rw [h.target] at changed
  exact AddressSpace.exists_leafAt_of_word_ne changed

/-- Tables that were reached before an edit are reached after it. -/
theorem Edited.reaches {va : VirtualAddress} (h : Edited p pages m m₁)
    (reached : m.target.Reaches va) : m₁.target.Reaches va := by
  rw [h.target]
  exact (Target.reaches_iff_of_agree (AddressSpace.agree_permitAll p m.target.space pages)).2 reached

end Monitor

namespace Action

open Monitor (Edited editRow editRows editRows_of_agree editRow_of_walk_eq_ok
  editRow_of_walk_eq_error editMarks_of_walk_eq_ok editMarks_of_walk_eq_error)

variable {p : Permission} {page : VirtualAddress} {pages : List VirtualAddress} {m : Monitor}

/-- Editing one page comes down to printing its row. When that is tried the edit is done, and the
page is flushed if it is mapped. -/
theorem exists_setPagePermission_eq (unlimited : m.Unlimited) (reached : m.target.Reaches page)
    (room : page.word.toNat + PageSize.size4K.bytes.toNat < UInt64.size) :
    ∃ m₁, Edited p [page] m m₁ ∧ m₁.terminal = m.terminal ∧
      ∀ t, setPagePermission p page (m.withTerminal t) =
        printLine (editRow p m.target.space page) (m₁.withTerminal t) := by
  have looked (t : Terminal) := lookup_eq page (m.withTerminal t)
  have walked (t : Terminal) : (m.withTerminal t).target.walk page =
      .ok (m.target.space.walk page) := reached.walk_eq
  simp only [walked] at looked
  cases hwalk : m.target.space.walk page with
  | error gap =>
    simp only [hwalk] at looked
    rw [editRow_of_walk_eq_error hwalk]
    let m₁ := ((m.record (.lookup page)).note (gap.notice page)).note
      ⟨.warn, s!"setperm: {page} not mapped, skipped"⟩
    refine ⟨m₁, ⟨?_, ?_, unlimited, rfl, rfl, rfl⟩, rfl, ?_⟩
    · rw [AddressSpace.permitAll, List.foldl_cons, List.foldl_nil, AddressSpace.permit, hwalk]
      rfl
    · rw [List.flatMap_singleton, editMarks_of_walk_eq_error hwalk]
      exact Array.toList_push
    · intro t
      exact (run_bind _ (looked t)).trans (run_bind _ (run_note _ _ _))
  | ok leaf =>
    simp only [hwalk] at looked
    let edited : Leaf := { leaf with entry := p.apply leaf.entry }
    have made : MappingRow.ofLeaf page edited = .ok ⟨page, some (edited.place page, edited.entry)⟩ :=
      MappingRow.ofLeaf_eq_ok page edited
    have rendered : MappingRow.render ⟨page, some (edited.place page, edited.entry)⟩ =
        .ok (editRow p m.target.space page) := by
      rw [editRow_of_walk_eq_ok hwalk]
      exact MappingRow.render_eq_ok room
    let stored : Monitor :=
      { m with target := { m.target with space := m.target.space.store edited } }
    let m₁ := ((stored.record (.lookup page)).record (.flush page)).note
      ⟨.info, s!"setperm {editRow p m.target.space page}"⟩
    refine ⟨m₁, ⟨?_, ?_, unlimited, rfl, rfl, rfl⟩, rfl, ?_⟩
    · rw [AddressSpace.permitAll, List.foldl_cons, List.foldl_nil, AddressSpace.permit, hwalk]
      rfl
    · rw [List.flatMap_singleton, editMarks_of_walk_eq_ok hwalk]
      change ((m.trace.push (.lookup page)).push (.flush page)).toList = _
      rw [Array.toList_push, Array.toList_push, List.append_assoc]
      rfl
    · intro t
      exact (run_bind _ (looked t)).trans <| (run_bind _ (run_store _ _)).trans <|
        (run_bind _ (run_ofExcept made _)).trans <| (run_bind _ (run_perform _ _)).trans <|
        (run_bind _ (run_ofExcept rendered _)).trans (run_bind _ (run_note _ _ _))

/-- On a terminal that takes the rows, a list of pages is edited one after another; no edit takes a
table out of reach or changes the row of a page. -/
theorem exists_forM_setPagePermission_eq (unlimited : m.Unlimited)
    (reached : ∀ page ∈ pages, m.target.Reaches page)
    (room : ∀ page ∈ pages, page.word.toNat + PageSize.size4K.bytes.toNat < UInt64.size)
    {t t' : Terminal} (taken : t.write (editRows p m.target.space pages) = (true, t')) :
    ∃ m₁, Edited p pages m m₁ ∧
      pages.forM (setPagePermission p) (m.withTerminal t) = .ok () (m₁.withTerminal t') := by
  induction pages generalizing m t with
  | nil =>
    rw [editRows, Terminal.write_empty] at taken
    cases taken
    exact ⟨m, .nil unlimited, rfl⟩
  | cons page rest ih =>
    rw [List.forall_mem_cons] at reached room
    rw [editRows, Terminal.write_append] at taken
    obtain ⟨m₁, first, -, run⟩ := exists_setPagePermission_eq (p := p) unlimited reached.1 room.1
    cases hwrite : t.write (editRow p m.target.space page ++ "\n") with
    | mk row t₁ =>
      rw [hwrite] at taken
      cases row with
      | false => cases taken
      | true =>
        have printed : setPagePermission p page (m.withTerminal t) = .ok () (m₁.withTerminal t₁) :=
          (run t).trans (run_print_of_taken hwrite m₁)
        have reached₁ : ∀ other ∈ rest, m₁.target.Reaches other :=
          fun other member => first.reaches (reached.2 other member)
        obtain ⟨m₂, edited, run_rest⟩ := ih first.unlimited reached₁ room.2
          (by rw [editRows_of_agree first.agree]; exact taken)
        exact ⟨m₂, first.append edited, (run_bind _ printed).trans run_rest⟩

theorem setPermission_edits {span : PageSpan .size4K} (unlimited : m.Unlimited)
    (reached : ∀ page ∈ span, m.target.Reaches page) :
    ∃ m', setPermission p span m = .ok () m' ∧ Edited p span.toList m m' ∧
      m'.terminal.shown = m.terminal.shown ++ editRows p m.target.space span.toList := by
  rw [setPermission, forPages_pages]
  obtain ⟨m₁, edited, run⟩ := exists_forM_setPagePermission_eq (p := p) unlimited
    (fun page member => reached page (PageSpan.mem_toList_iff.1 member))
    (fun _ => PageSpan.toNat_add_bytes_lt_of_mem)
    (Terminal.write_of_limit_eq_none (by exact unlimited))
  refine ⟨_, run, ?_, rfl⟩
  exact ⟨edited.target, edited.trace, unlimited, edited.options, edited.greeted, edited.context⟩

end Action

namespace Monitor

variable {text : String} {p : Permission} {span : PageSpan .size4K} {m : Monitor}

theorem runCommand_edits_shown (asks : Asks text (.setPermission p span)) (unlimited : m.Unlimited)
    (reached : ∀ page ∈ span, m.target.Reaches page) :
    ∃ m', m.runCommand text = .ok .proceed m' ∧ Edited p span.toList m m' ∧
      m'.terminal.shown = m.terminal.shown ++ editRows p m.target.space span.toList := by
  obtain ⟨journal, read⟩ := Action.exists_interpret_eq_execute asks m
  obtain ⟨m', run, edited, shown⟩ :=
    Action.setPermission_edits (m := { m with journal }) (p := p) unlimited reached
  have interpreted : Action.interpret text m = .ok .proceed m' :=
    read.trans (Action.run_bind _ run)
  refine ⟨m', ?_, ⟨edited.target, edited.trace, edited.unlimited, edited.options, edited.greeted,
    edited.context⟩, shown⟩
  rw [runCommand, interpreted]

theorem runCommand_edits (asks : Asks text (.setPermission p span)) (unlimited : m.Unlimited)
    (reached : ∀ page ∈ span, m.target.Reaches page) :
    ∃ m', m.runCommand text = .ok .proceed m' ∧ Edited p span.toList m m' := by
  obtain ⟨m', run, edited, -⟩ := runCommand_edits_shown asks unlimited reached
  exact ⟨m', run, edited⟩

/-- What a line that sets permissions does. A word of memory changes only if it is a leaf of a page
of the span before the line is run, and then in its two permission bits and no other. Each page is
looked up once, and those that were mapped are flushed, all in ascending order. -/
theorem runCommand_setPermission (asks : Asks text (.setPermission p span))
    (unlimited : m.Unlimited) (reached : ∀ page ∈ span, m.target.Reaches page) :
    ∃ m' memory, m.runCommand text = .ok .proceed m' ∧
      m'.target = { m.target with space := { m.target.space with memory } } ∧
      memory.byteCount = m.target.space.memory.byteCount ∧
      (∀ slot, memory.word slot ≠ m.target.space.memory.word slot →
        ∃ page ∈ span, m.target.space.LeafAt page slot) ∧
      (∀ slot, (∃ page ∈ span, m.target.space.LeafAt page slot) → ∀ i,
        Word.testBit (memory.word slot) i =
          if i = Entry.Flag.user.bit then p.user
          else if i = Entry.Flag.writable.bit then p.writable
          else Word.testBit (m.target.space.memory.word slot) i) ∧
      (∀ a, (∀ page ∈ span, ¬ m.target.space.LeafAt page (a / 8)) →
        memory.byte a = m.target.space.memory.byte a) ∧
      ∃ pages : List VirtualAddress, (∀ page, page ∈ pages ↔ page ∈ span) ∧
        pages.Pairwise (· < ·) ∧
        m'.trace.toList = m.trace.toList ++ pages.flatMap (editMarks m.target.space) := by
  obtain ⟨m', run, edited⟩ := runCommand_edits asks unlimited reached
  have space : m.target.space.permitAll p span.toList =
      { m.target.space with memory := (m.target.space.permitAll p span.toList).memory } :=
    congrArg (AddressSpace.mk _) (AddressSpace.agree_permitAll p m.target.space span.toList).root
  -- Words and entries are the same bits, and the pages of the span are those of its list.
  have untouched {slot : Nat} (h : ∀ page ∈ span, ¬ m.target.space.LeafAt page slot) :
      (m.target.space.permitAll p span.toList).memory.word slot =
        m.target.space.memory.word slot := by
    apply congrArg Entry.bits
    apply AddressSpace.entry_permitAll_of_not_leafAt
    intro page member
    exact h page (PageSpan.mem_toList_iff.1 member)
  refine ⟨m', (m.target.space.permitAll p span.toList).memory, run, ?_,
    AddressSpace.byteCount_permitAll, ?_, ?_, ?_, span.toList, fun _ => PageSpan.mem_toList_iff,
    PageSpan.pairwise_toList, edited.trace⟩
  · exact edited.target.trans (congrArg (fun space => { m.target with space }) space)
  · intro slot changed
    apply Classical.byContradiction
    intro none
    exact changed (untouched fun page member leaf => none ⟨page, member, leaf⟩)
  · rintro slot ⟨page, member, leaf⟩ i
    have replaced := AddressSpace.entry_permitAll_of_leafAt (p := p)
      ⟨page, PageSpan.mem_toList_iff.2 member, leaf⟩
    have bits := Entry.testBit_apply p (m.target.space.memory.entry slot) i
    rw [← replaced] at bits
    exact bits
  · intro a h
    rw [Memory.byte, Memory.byte, untouched h]

/-- A machine with one word of memory, which is its root table, all other tables and the leaf of
page zero at once. -/
def selfMapped : Monitor :=
  { target := { space := ⟨⟨#[0x1]⟩, .zero⟩ } }

/-- The first two pages of the address space. -/
def firstPages : PageSpan .size4K :=
  ⟨⟨0⟩, ⟨0x2000⟩, by decide, by decide, by decide⟩

/-- Users may write to page zero afterwards; the page behind it is not mapped. -/
theorem runCommand_setPermission_selfMapped :
    ∃ m' memory, selfMapped.runCommand "setperm UW 0 0x2000" = .ok .proceed m' ∧
      m'.target = { selfMapped.target with space := ⟨memory, .zero⟩ } ∧ memory.byteCount = 8 ∧
      Word.testBit (memory.word 0) 1 = true ∧ Word.testBit (memory.word 0) 2 = true := by
  have asks : Asks "setperm UW 0 0x2000" (.setPermission ⟨true, true⟩ firstPages) := by decide +kernel
  have unlimited : selfMapped.Unlimited := rfl
  have reached : ∀ page ∈ firstPages, selfMapped.target.Reaches page :=
    fun page _ => Target.reaches_of_physical rfl page
  have leaf : ∃ page ∈ firstPages, selfMapped.target.space.LeafAt page 0 :=
    ⟨⟨0⟩, ⟨by decide, by decide, by decide⟩, ⟨0, ⟨1⟩, .size4K⟩, rfl, rfl⟩
  obtain ⟨m', memory, run, target, size, -, bits, -⟩ :=
    runCommand_setPermission asks unlimited reached
  exact ⟨m', memory, run, target, size, bits 0 leaf 1, bits 0 leaf 2⟩

end Monitor

end DebugMonitor
