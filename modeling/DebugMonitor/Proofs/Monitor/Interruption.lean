import DebugMonitor.Proofs.Monitor.Editing
import DebugMonitor.Proofs.Monitor.Truncation

/-!
# Editing on a terminal that fails

A terminal that fails in the row of a page ends a line that sets permissions there. The page has been
edited and flushed by then, like all pages before it, and no page behind it was looked at: memory and
trace are those of the same command over the span that ends with the page.

`exists_setPermission_eq` says in which state the row of a page is tried, whatever becomes of it.
`runCommand_setPermission_interrupted` draws the conclusion for a row that fails.
-/

namespace DebugMonitor

open Paging Command

namespace Terminal

variable {t t' : Terminal} {a b : String}

theorem taken_of_append (taken : (t.write (a ++ b)).1 = true) : (t.write a).1 = true := by
  rw [write_append] at taken
  split at taken
  · assumption
  · exact taken

/-- A text that is taken is shown behind what was shown before. -/
theorem shown_of_taken (taken : t.write a = (true, t')) : t'.shown = t.shown ++ a := by
  rw [write] at taken
  split at taken
  · cases taken
    rfl
  · split at taken
    · cases taken
      rfl
    · cases taken

end Terminal

namespace Action

open Monitor (Edited editRow editRows)

variable {p : Permission} {span : PageSpan .size4K} {page : VirtualAddress} {m : Monitor}

/-- On a terminal that takes the rows of the pages in front of a page, a span is edited up to that
page before the row of the page is tried. -/
theorem exists_setPermission_eq (unlimited : m.Unlimited) (member : page ∈ span)
    (reached : ∀ other ∈ span.through page member, m.target.Reaches other) {t t' : Terminal}
    (taken : t.write (editRows p m.target.space (span.before page)) = (true, t')) :
    ∃ m₁, Edited p (span.through page member).toList m m₁ ∧
      setPermission p span (m.withTerminal t) =
        (do
          printLine (editRow p m.target.space page)
          (span.behind page).forM (setPagePermission p)) (m₁.withTerminal t') := by
  have early {other : VirtualAddress} (h : other ∈ span.before page) :
      other ∈ span.through page member := by
    rw [← PageSpan.mem_toList_iff, PageSpan.toList_through]
    exact List.mem_append_left _ h
  obtain ⟨m₁, edited, run⟩ := exists_forM_setPagePermission_eq (p := p) unlimited
    (fun other h => reached other (early h))
    (fun other h => PageSpan.toNat_add_bytes_lt (early h)) taken
  have here : page ∈ span.through page member :=
    (PageSpan.mem_through_iff member).2 ⟨member, Address.le_iff.2 (Nat.le_refl _)⟩
  obtain ⟨m₂, edited_page, -, tried⟩ := exists_setPagePermission_eq (p := p) edited.unlimited
    (edited.reaches (reached page here)) (PageSpan.toNat_add_bytes_lt member)
  rw [Monitor.editRow_of_agree edited.agree] at tried
  refine ⟨m₂, ?_, ?_⟩
  · rw [PageSpan.toList_through]
    exact edited.append edited_page
  · rw [setPermission, forPages_pages, PageSpan.toList_eq_append member]
    have split : (span.before page ++ page :: span.behind page).forM (setPagePermission p) = (do
        (span.before page).forM (setPagePermission p)
        setPagePermission p page
        (span.behind page).forM (setPagePermission p)) :=
      List.forM_append
    rw [split]
    exact (run_bind _ run).trans (bind_eq_of_eq _ (tried t'))

/-- A terminal that fails in the row of a page ends the command when that page is edited. -/
theorem setPermission_interrupted (unlimited : m.Unlimited) (member : page ∈ span)
    (reached : ∀ other ∈ span.through page member, m.target.Reaches other) {t : Terminal}
    (taken : (t.write (editRows p m.target.space (span.before page))).1 = true)
    (failed : (t.write (editRows p m.target.space (span.before page ++ [page]))).1 = false) :
    ∃ m₁ t', Edited p (span.through page member).toList m m₁ ∧
      setPermission p span (m.withTerminal t) =
        .error (.diagnostic .consoleFailed) (m₁.withTerminal t') := by
  rw [Monitor.editRows_append, Terminal.write_append, if_pos taken] at failed
  cases hwrite : t.write (editRows p m.target.space (span.before page)) with
  | mk rows t₁ =>
    rw [hwrite] at taken failed
    cases taken
    obtain ⟨m₁, edited, tried⟩ := exists_setPermission_eq unlimited member reached hwrite
    cases hrow : t₁.write (editRow p m.target.space page ++ "\n") with
    | mk row t₂ =>
      have row_failed : row = false := by
        rw [editRows, editRows, String.append_empty, hrow] at failed
        exact failed
      subst row_failed
      have printed : printLine (editRow p m.target.space page) (m₁.withTerminal t₁) =
          .error (.diagnostic .consoleFailed) (m₁.withTerminal t₂) :=
        run_print_of_failed hrow m₁
      exact ⟨m₁, t₂, edited, tried.trans (run_bind_of_error _ printed)⟩

end Action

namespace Monitor

variable {text : String} {p : Permission} {span : PageSpan .size4K} {page : VirtualAddress}
variable {m : Monitor}

/-- The marks of editing a span up to one of its pages: each page is looked up, and flushed if it is
mapped. -/
structure MarksThrough (span : PageSpan .size4K) (page : VirtualAddress) (space : AddressSpace)
    (marks : List Effect) : Prop where
  lookup : ∀ va, .lookup va ∈ marks ↔ va ∈ span ∧ va ≤ page
  flush : ∀ va, .flush va ∈ marks ↔ (va ∈ span ∧ va ≤ page) ∧ ∃ slot, space.LeafAt va slot

theorem marksThrough_flatMap (member : page ∈ span) (space : AddressSpace) :
    MarksThrough span page space
      ((span.through page member).toList.flatMap (editMarks space)) where
  lookup va := by
    simp [lookup_mem_editMarks, PageSpan.mem_toList_iff, PageSpan.mem_through_iff]
  flush va := by
    simp [flush_mem_editMarks, PageSpan.mem_toList_iff, PageSpan.mem_through_iff]

/-- A terminal that takes the rows in front of a page takes those in front of an earlier one. -/
theorem taken_before {va : VirtualAddress} {t : Terminal} {space : AddressSpace}
    (inside : va ∈ span) (upTo : va ≤ page)
    (taken : (t.write (editRows p space (span.before page))).1 = true) :
    (t.write (editRows p space (span.before va))).1 = true := by
  rcases Address.lt_or_eq_of_le upTo with below | rfl
  · obtain ⟨rest, before⟩ := PageSpan.exists_before_eq_append inside below
    rw [before, editRows_append] at taken
    exact Terminal.taken_of_append taken
  · exact taken

/-- The state in which a line tries the row of a page: the rows in front of it are shown, and the page
has been edited and flushed. -/
theorem exists_interpret_setPermission_eq (asks : Asks text (.setPermission p span))
    (member : page ∈ span) (reached : ∀ other ∈ span.through page member, m.target.Reaches other)
    (taken : (m.terminal.write (editRows p m.target.space (span.before page))).1 = true) :
    ∃ (m₁ : Monitor) (marks : List Effect),
      Action.interpret text m = (do
        Action.printLine (editRow p m.target.space page)
        (span.behind page).forM (Action.setPagePermission p)
        return Flow.proceed) m₁ ∧
      m₁.terminal.shown = m.terminal.shown ++ editRows p m.target.space (span.before page) ∧
      m₁.trace.toList = m.trace.toList ++ marks ∧ MarksThrough span page m.target.space marks := by
  obtain ⟨journal, read⟩ := Action.exists_interpret_eq_execute asks m
  let start : Monitor := ({ m with journal } : Monitor).withTerminal {}
  have interpreted : Action.interpret text m =
      (Action.setPermission p span >>= fun _ => pure Flow.proceed) (start.withTerminal m.terminal) :=
    read
  cases hwrite : m.terminal.write (editRows p m.target.space (span.before page)) with
  | mk rows t =>
    rw [hwrite] at taken
    cases taken
    obtain ⟨m₁, edited, tried⟩ :=
      Action.exists_setPermission_eq (m := start) rfl member reached hwrite
    refine ⟨m₁.withTerminal t, _, ?_, Terminal.shown_of_taken hwrite, edited.trace,
      marksThrough_flatMap member _⟩
    rw [interpreted, Action.bind_eq_of_eq _ tried, bind_assoc]
    rfl

/-- What a line that sets permissions does on a terminal that fails in the row of a page. Memory and
trace are those of the same command over the span that ends with the page, on a terminal without a
limit. So no page behind it was looked up, the pages that were mapped are flushed, and a word changed
only if it is the leaf of such a page. When the row of a page is tried, that page has been flushed. -/
theorem runCommand_setPermission_interrupted (asks : Asks text (.setPermission p span))
    (member : page ∈ span)
    (reached : ∀ other ∈ span.through page member, m.target.Reaches other)
    (taken : (m.terminal.write (editRows p m.target.space (span.before page))).1 = true)
    (failed :
      (m.terminal.write (editRows p m.target.space (span.before page ++ [page]))).1 = false) :
    ∃ m' m₁, m.runCommand text = .ok .proceed m' ∧
      Action.execute (.setPermission p (span.through page member)) (m.limited none) =
        .ok .proceed m₁ ∧
      m₁.terminal.shown = m.terminal.shown ++
        editRows p m.target.space (span.before page ++ [page]) ∧
      m'.target = m₁.target ∧ m'.trace = m₁.trace ∧
      (∃ marks, m'.trace.toList = m.trace.toList ++ marks ∧
        MarksThrough span page m.target.space marks ∧
        ∀ slot, m'.target.space.memory.word slot ≠ m.target.space.memory.word slot →
          ∃ va, .flush va ∈ marks ∧ m.target.space.LeafAt va slot) ∧
      ∀ va ∈ span, va ≤ page → ∃ (m₂ : Monitor) (marks : List Effect),
        Action.interpret text m = (do
          Action.printLine (editRow p m.target.space va)
          (span.behind va).forM (Action.setPagePermission p)
          return Flow.proceed) m₂ ∧
        m₂.terminal.shown = m.terminal.shown ++ editRows p m.target.space (span.before va) ∧
        m₂.trace.toList = m.trace.toList ++ marks ∧ MarksThrough span va m.target.space marks := by
  obtain ⟨journal, read⟩ := Action.exists_interpret_eq_execute asks m
  let start : Monitor := ({ m with journal } : Monitor).withTerminal {}
  have interpreted : Action.interpret text m =
      (Action.setPermission p span >>= fun _ => pure Flow.proceed) (start.withTerminal m.terminal) :=
    read
  obtain ⟨m₁, t, edited, cut⟩ :=
    Action.setPermission_interrupted (m := start) rfl member reached taken failed
  obtain ⟨m₂, whole, edited₂, shown⟩ :=
    Action.setPermission_edits (p := p) (m := m.limited none) rfl reached
  have marks := marksThrough_flatMap member m.target.space
  refine ⟨(m₁.withTerminal t).report .consoleFailed, m₂, ?_, Action.run_bind _ whole, ?_,
    edited.target.trans edited₂.target.symm, ?_, ⟨_, edited.trace, marks, ?_⟩, ?_⟩
  · rw [runCommand, interpreted, Action.run_bind_of_error _ cut]
  · rw [shown, PageSpan.toList_through]
    rfl
  · exact Array.toList_inj.1 (edited.trace.trans edited₂.trace.symm)
  · intro slot changed
    obtain ⟨va, listed, leaf⟩ := edited.exists_leafAt changed
    have inside := (PageSpan.mem_through_iff member).1 (PageSpan.mem_toList_iff.1 listed)
    exact ⟨va, (marks.flush va).2 ⟨inside, slot, leaf⟩, leaf⟩
  · intro va inside upTo
    have earlier : ∀ other ∈ span.through va inside, m.target.Reaches other := by
      intro other h
      obtain ⟨inner, below⟩ := (PageSpan.mem_through_iff inside).1 h
      exact reached other
        ((PageSpan.mem_through_iff member).2 ⟨inner, Address.le_trans below upTo⟩)
    exact exists_interpret_setPermission_eq asks inside earlier (taken_before inside upTo taken)

/-- The terminal fails six characters into the row of the second page, which is not mapped. -/
theorem runCommand_setPermission_interrupted_selfMapped :
    ∃ (second : (⟨0x1000⟩ : VirtualAddress) ∈ firstPages) (m' m₁ : Monitor),
      (selfMapped.limited (some ⟨70, false⟩)).runCommand "setperm UW 0 0x2000" = .ok .proceed m' ∧
      Action.execute (.setPermission ⟨true, true⟩ (firstPages.through ⟨0x1000⟩ second))
        (selfMapped.limited none) = .ok .proceed m₁ ∧
      m'.target = m₁.target ∧ m'.trace = m₁.trace ∧ .flush ⟨0⟩ ∈ m'.trace.toList := by
  have asks : Asks "setperm UW 0 0x2000" (.setPermission ⟨true, true⟩ firstPages) := by decide +kernel
  have second : (⟨0x1000⟩ : VirtualAddress) ∈ firstPages := ⟨by decide, by decide, by decide⟩
  obtain ⟨m', m₁, run, whole, -, target, trace, ⟨marks, marked, through, -⟩, -⟩ :=
    runCommand_setPermission_interrupted (m := selfMapped.limited (some ⟨70, false⟩)) asks second
      (fun va _ => Target.reaches_of_physical rfl va) (by decide) (by decide)
  have mapped : ∃ slot, selfMapped.target.space.LeafAt ⟨0⟩ slot := ⟨0, ⟨0, ⟨1⟩, .size4K⟩, rfl, rfl⟩
  have flushed : .flush ⟨0⟩ ∈ marks :=
    (through.flush ⟨0⟩).2 ⟨⟨⟨by decide, by decide, by decide⟩, by decide⟩, mapped⟩
  refine ⟨second, m', m₁, run, whole, target, trace, ?_⟩
  rw [marked]
  exact List.mem_append_right _ flushed

end Monitor

end DebugMonitor
