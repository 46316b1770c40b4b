import DebugMonitor.Proofs.Monitor.Interruption
import DebugMonitor.Proofs.Monitor.Showing

/-!
# Visiting pages in any circumstances

The commands on mappings visit the pages of a span one after another. A page whose tables cannot all be
reached is a fault. Any other page is edited, if the command edits, and then its row is tried; `Visits`
says so of a command. No edit changes which tables are reached or what the rows say, so the rows that a
line has to show are known beforehand and the terminal decides how many of them it takes.

`Visits.exists_forM` follows the pages one by one, up to the first one out of reach, and
`Visits.exists_after_eq` is the whole line, on any terminal and whether it faults or not. Requests that
show a text and go on need no such account: `exists_runCommand_eq_afterShowing` takes theirs from the
transcript.
-/

namespace DebugMonitor

open Paging Command

/-- The terminal after a line that has a text to show. Where it fails, one more line that tells of the
failure is tried. -/
def Terminal.afterShowing (t : Terminal) (text : String) : Terminal :=
  match t.write text with
  | (true, shown) => shown
  | (false, cut) => (cut.write (Diagnostic.consoleFailed.message ++ "\n")).2

/-- How a run ends that leaves the state `m` behind and has a text to show: the terminal takes the text
and the run comes to its end or to a fault, or the terminal fails and the run is cut short. -/
inductive EndsShowing {α : Type} (t : Terminal) (text : String) (m : Monitor) :
    EStateM.Result Halt Monitor α → Prop where
  | ok (x : α) (t' : Terminal) : t.write text = (true, t') →
      EndsShowing t text m (.ok x (m.withTerminal t'))
  | fault (f : Fault) (t' : Terminal) : t.write text = (true, t') →
      EndsShowing t text m (.error (.fault f) (m.withTerminal t'))
  | cut (t' : Terminal) : t.write text = (false, t') →
      EndsShowing t text m (.error (.diagnostic .consoleFailed) (m.withTerminal t'))

variable {t t₁ : Terminal} {a b : String} {m : Monitor}

/-- A run is preceded by a text that the terminal takes. -/
theorem EndsShowing.append {α : Type} {r : EStateM.Result Halt Monitor α}
    (first : t.write a = (true, t₁)) (rest : EndsShowing t₁ b m r) :
    EndsShowing t (a ++ b) m r := by
  have both : t.write (a ++ b) = t₁.write b := by
    rw [Terminal.write_append, first, if_pos rfl]
  cases rest with
  | ok x t' taken => exact .ok x t' (both.trans taken)
  | fault f t' taken => exact .fault f t' (both.trans taken)
  | cut t' failed => exact .cut t' (both.trans failed)

/-- A text is cut off by a terminal that does not take its first part. -/
theorem EndsShowing.cut_append {α : Type} (first : t.write a = (false, t₁)) (b : String) :
    EndsShowing t (a ++ b) m
      (.error (.diagnostic .consoleFailed) (m.withTerminal t₁) : EStateM.Result Halt Monitor α) := by
  refine .cut t₁ ?_
  rw [Terminal.write_append, first, if_neg Bool.false_ne_true]

/-- What follows a run changes nothing if it only gives an answer. -/
theorem EndsShowing.bind_pure {a : Action Unit} {m₀ : Monitor} (ended : EndsShowing t b m (a m₀))
    (flow : Flow) : EndsShowing t b m ((do a; return flow : Action Flow) m₀) := by
  generalize run : a m₀ = r at ended
  cases ended with
  | ok _ t' taken => exact Action.run_bind _ run ▸ .ok flow t' taken
  | fault f t' taken => exact Action.run_bind_of_error _ run ▸ .fault f t' taken
  | cut t' failed => exact Action.run_bind_of_error _ run ▸ .cut t' failed

/-- A line passes a fault on as it is and reports a failure of the terminal. -/
theorem EndsShowing.after_runCommand {text : String} {m₀ : Monitor}
    (ended : EndsShowing t b m (Action.interpret text m₀)) :
    m₀.after (Monitor.runCommand text) = m.withTerminal (t.afterShowing b) := by
  rw [Monitor.after, Monitor.runCommand, Terminal.afterShowing]
  generalize Action.interpret text m₀ = r at ended
  cases ended with
  | ok _ _ taken => rw [taken]
  | fault _ _ taken => rw [taken]
  | cut _ failed =>
    rw [failed]
    rfl

/-- A run with a transcript has its text to show. -/
theorem Transcript.exists_endsShowing {α : Type} (r : Transcript α) (t : Terminal) :
    ∃ m, EndsShowing t r.text m (r.on t) := by
  rw [on]
  cases write : t.write r.text with
  | mk taken t' =>
    cases taken with
    | true =>
      cases r.ending with
      | ok x m => exact ⟨m, .ok x t' write⟩
      | error f m => exact ⟨m, .fault f t' write⟩
    | false => exact ⟨r.cut t.room, .cut t' write⟩

/-- What a request that goes on shows on a terminal that takes everything, it has to show on every
terminal. -/
theorem Monitor.exists_runCommand_eq_afterShowing {text shown : String} {request : Request}
    (asks : Asks text request) (stays : ∀ on, request ≠ .resume on)
    (run : ∀ journal, ∃ m', Action.execute request { m.withTerminal {} with journal } =
      .ok .proceed m' ∧ m'.terminal.shown = shown) :
    ∃ m', m.runCommand text = .ok .proceed m' ∧ m'.terminal = m.terminal.afterShowing shown := by
  obtain ⟨notes, interpreted⟩ := Action.exists_notes_interpret_eq text
  let noted : Monitor := { m with journal := m.journal ++ notes }
  have read (t : Terminal) : Action.interpret text (m.withTerminal t) =
      Action.execute request (noted.withTerminal t) := by
    rw [interpreted, asks]
    rfl
  obtain ⟨r, streams⟩ := Action.execute_streams request stays noted
  have terminal (t : Terminal) :
      ((m.withTerminal t).after (runCommand text)).terminal = t.afterShowing r.text := by
    obtain ⟨m₁, ended⟩ := r.exists_endsShowing t
    rw [← streams, ← read] at ended
    rw [ended.after_runCommand]
    rfl
  obtain ⟨all, ran, rfl⟩ := run noted.journal
  have proceeds : (m.withTerminal {}).runCommand text = .ok .proceed all := by
    have whole := (read {}).trans ran
    rw [runCommand, whole]
  have same : all.terminal.shown = "" ++ r.text := by
    rw [← after_of_ok proceeds]
    exact congrArg Terminal.shown (terminal {})
  obtain ⟨m', goes⟩ := exists_runCommand_eq_proceed proceeds
  refine ⟨m', goes, ?_⟩
  rw [same, String.empty_append, ← after_of_ok goes]
  exact terminal m.terminal

/-- A page is looked up first. If its tables are reached it is edited, and then its row is printed. An
edit replaces permissions at most and leaves all rows as they are. -/
structure Visits (visit : VirtualAddress → Action Unit)
    (edit : AddressSpace → VirtualAddress → AddressSpace)
    (row : AddressSpace → VirtualAddress → String) : Prop where
  agree : ∀ (space : AddressSpace) (page : VirtualAddress), space.Agree (edit space page)
  row_edit : ∀ (space : AddressSpace) (page : VirtualAddress), row (edit space page) = row space
  looks : ∀ page : VirtualAddress, ∃ f, visit page = Action.lookup page >>= f
  prints : ∀ {m : Monitor} {page : VirtualAddress}, m.target.Reaches page →
    page.word.toNat + PageSize.size4K.bytes.toNat < UInt64.size →
    ∃ m₁ : Monitor, m₁.target = { m.target with space := edit m.target.space page } ∧
      ∀ t, visit page (m.withTerminal t) =
        Action.printLine (row m.target.space page) (m₁.withTerminal t)

namespace Action

/-- Tables that are out of reach are a fault. -/
theorem exists_lookup_eq_error {page : VirtualAddress} (missed : ¬ m.target.Reaches page) :
    ∃ f, ∀ t, lookup page (m.withTerminal t) =
      .error (.fault f) ((m.record (.lookup page)).withTerminal t) := by
  have looked (t : Terminal) := lookup_eq page (m.withTerminal t)
  cases walked : m.target.walk page with
  | ok found => exact absurd (Target.walk_eq_ok_iff.1 walked).1 missed
  | error f =>
    refine ⟨f, fun t => ?_⟩
    have same : (m.withTerminal t).target.walk page = .error f := walked
    rw [looked, same]
    rfl

theorem visits_showPage : Visits showPage (fun space _ => space) pageRow where
  agree space _ := .refl space
  row_edit _ _ := rfl
  looks page := ⟨_, rfl⟩
  prints {m page} reached room := by
    obtain ⟨journal, shown⟩ := exists_showPage_eq_printLine reached room
    exact ⟨{ m.recordAll [.lookup page] with journal }, rfl, shown⟩

theorem visits_setPagePermission (p : Permission) :
    Visits (setPagePermission p) (AddressSpace.permit p) (Monitor.editRow p) where
  agree := AddressSpace.agree_permit p
  row_edit space page := Monitor.editRow_of_agree (AddressSpace.agree_permit p space page)
  looks page := ⟨_, rfl⟩
  prints {m page} reached room := by
    obtain ⟨m₁, edited, -, tried⟩ :=
      exists_setPagePermission_eq (p := p) (m := m.withTerminal {}) rfl reached room
    exact ⟨m₁, edited.target, tried⟩

theorem execute_showMappings (span : PageSpan .size4K) :
    execute (.showMappings span) = do span.toList.forM showPage; return Flow.proceed := by
  rw [execute, showMappings, forPages_pages]

theorem execute_setPermission (p : Permission) (span : PageSpan .size4K) :
    execute (.setPermission p span) = do
      span.toList.forM (setPagePermission p)
      return Flow.proceed := by
  rw [execute, setPermission, forPages_pages]

end Action

/-- A line shows rows, each in a line of its own, on every terminal as far as it takes them. Where the
terminal has taken a row, `P` holds of it and of the target that the line leaves behind, however the line
ends. -/
structure Monitor.PrintsRows (m : Monitor) (text : String) (rows : List String)
    (P : Target → String → Prop) : Prop where
  isLine : ∀ row ∈ rows, Text.IsLine row
  terminal : ∀ t, ((m.withTerminal t).after (runCommand text)).terminal =
    t.afterShowing (Text.unlines rows)
  each : ∀ t k, (t.write (Text.unlines (rows.take k))).1 = true →
    ∀ row ∈ rows.take k, P ((m.withTerminal t).after (runCommand text)).target row

/-- A run over pages that has rows to show ends on a terminal. The pages `visited` have been edited, and
those whose rows the terminal takes are among them. -/
structure Covers (edit : AddressSpace → VirtualAddress → AddressSpace) (row : VirtualAddress → String)
    (before : Target) (shown : List VirtualAddress) (t : Terminal) (visited : List VirtualAddress)
    (m : Monitor) (r : EStateM.Result Halt Monitor Unit) : Prop where
  target : m.target = { before with space := visited.foldl edit before.space }
  ends : EndsShowing t (Text.unlines (shown.map row)) m r
  each : ∀ k, (t.write (Text.unlines ((shown.take k).map row))).1 = true →
    ∀ page ∈ shown.take k, page ∈ visited

section

variable {edit : AddressSpace → VirtualAddress → AddressSpace} {row : VirtualAddress → String}
variable {before : Target} {page : VirtualAddress} {shown visited : List VirtualAddress}
variable {r : EStateM.Result Halt Monitor Unit}

theorem Covers.nil (same : m.target = before) (ends : EndsShowing t "" m r) :
    Covers edit row before [] t [] m r where
  target := same
  ends := ends
  each _ _ _ member := nomatch List.mem_of_mem_take member

/-- The terminal fails in the row of the first page. -/
theorem Covers.cut (edited : m.target = { before with space := edit before.space page })
    (failed : t.write (row page ++ "\n") = (false, t₁)) :
    Covers edit row before (page :: shown) t [page] m
      (.error (.diagnostic .consoleFailed) (m.withTerminal t₁)) where
  target := edited
  ends := by
    rw [List.map_cons, Text.unlines_cons]
    exact .cut_append failed _
  each k taken := by
    cases k with
    | zero => exact fun _ member => nomatch member
    | succ k =>
      rw [List.take_succ_cons, List.map_cons, Text.unlines_cons, Terminal.write_append, failed,
        if_neg Bool.false_ne_true] at taken
      cases taken

/-- The terminal takes the row of the first page, and the run goes on with the others. -/
theorem Covers.cons (taken : t.write (row page ++ "\n") = (true, t₁))
    (rest : Covers edit row { before with space := edit before.space page } shown t₁ visited m r) :
    Covers edit row before (page :: shown) t (page :: visited) m r where
  target := rest.target
  ends := by
    rw [List.map_cons, Text.unlines_cons]
    exact rest.ends.append taken
  each k := by
    cases k with
    | zero => exact fun _ _ member => nomatch member
    | succ k =>
      rw [List.take_succ_cons, List.map_cons, Text.unlines_cons, Terminal.write_append, taken,
        if_pos rfl]
      exact fun all => List.forall_mem_cons.2 ⟨List.mem_cons_self, fun other member =>
        List.mem_cons_of_mem _ (rest.each k all other member)⟩

end

/-- The pages of a list that are shown: those in front of the first one that is out of reach. -/
structure Target.InReach (target : Target) (pages shown : List VirtualAddress) : Prop where
  front : shown <+: pages
  reaches : ∀ page ∈ shown, target.Reaches page
  stops : ∀ page, pages[shown.length]? = some page → ¬ target.Reaches page

namespace Target.InReach

variable {target : Target} {page : VirtualAddress} {pages shown : List VirtualAddress}

theorem nil (stops : ∀ page, pages.head? = some page → ¬ target.Reaches page) :
    target.InReach pages [] where
  front := List.nil_prefix
  reaches := List.forall_mem_nil _
  stops page there := stops page (List.head?_eq_getElem?.trans there)

theorem cons (reached : target.Reaches page) (rest : target.InReach pages shown) :
    target.InReach (page :: pages) (page :: shown) where
  front := List.prefix_cons_inj page |>.2 rest.front
  reaches := List.forall_mem_cons.2 ⟨reached, rest.reaches⟩
  stops := rest.stops

/-- Spaces that agree have the same pages in reach. -/
theorem of_agree {space : AddressSpace} (agree : target.space.Agree space)
    (after : ({ target with space } : Target).InReach pages shown) : target.InReach pages shown where
  front := after.front
  reaches page member := (reaches_iff_of_agree agree).1 (after.reaches page member)
  stops page there reached := after.stops page there ((reaches_iff_of_agree agree).2 reached)

theorem getElem?_eq_some {i : Nat} (inReach : target.InReach pages shown)
    (here : shown[i]? = some page) : pages[i]? = some page := by
  obtain ⟨inside, rfl⟩ := List.getElem?_eq_some_iff.1 here
  exact List.prefix_iff_getElem?.1 inReach.front i inside

/-- All pages are shown if they are all in reach. -/
theorem eq_of_forall (inReach : target.InReach pages shown)
    (all : ∀ page ∈ pages, target.Reaches page) : shown = pages := by
  apply inReach.front.eq_of_length_le
  apply Nat.le_of_not_lt
  intro more
  exact inReach.stops _ (List.getElem?_eq_getElem more) (all _ (List.getElem_mem more))

end Target.InReach

namespace Visits

variable {visit : VirtualAddress → Action Unit} {edit : AddressSpace → VirtualAddress → AddressSpace}
variable {row : AddressSpace → VirtualAddress → String} {pages : List VirtualAddress}

/-- Pages are visited one after another. The rows to show are those of the pages up to the first one
that is out of reach, whatever the terminal takes of them. -/
theorem exists_forM (v : Visits visit edit row) (m : Monitor)
    (room : ∀ page ∈ pages, page.word.toNat + PageSize.size4K.bytes.toNat < UInt64.size) :
    ∃ shown : List VirtualAddress, m.target.InReach pages shown ∧
      ∀ t, ∃ visited m₁, Covers edit (row m.target.space) m.target shown t visited m₁
        (pages.forM visit (m.withTerminal t)) := by
  induction pages generalizing m with
  | nil =>
    refine ⟨[], .nil nofun, fun t => ⟨[], m, .nil rfl ?_⟩⟩
    exact .ok () t t.write_empty
  | cons page rest ih =>
    rw [List.forall_mem_cons] at room
    have stops {t : Terminal} {e : Halt} {m₁ : Monitor}
        (first : visit page (m.withTerminal t) = .error e m₁) :
        (page :: rest).forM visit (m.withTerminal t) = .error e m₁ :=
      Action.run_bind_of_error _ first
    by_cases reached : m.target.Reaches page
    · obtain ⟨m₁, edited, tried⟩ := v.prints reached room.1
      have agree := v.agree m.target.space page
      obtain ⟨shown, listed, covers⟩ := ih m₁ room.2
      -- The edit leaves the rows of the other pages as they are and takes no table out of reach.
      rw [edited] at listed covers
      rw [v.row_edit] at covers
      refine ⟨page :: shown, (listed.of_agree agree).cons reached, fun t => ?_⟩
      cases write : t.write (row m.target.space page ++ "\n") with
      | mk taken t₁ =>
        cases taken with
        | true =>
          have first := (tried t).trans (Action.run_print_of_taken write m₁)
          have goes : (page :: rest).forM visit (m.withTerminal t) =
              rest.forM visit (m₁.withTerminal t₁) :=
            Action.run_bind _ first
          obtain ⟨visited, m₂, covered⟩ := covers t₁
          exact ⟨page :: visited, m₂, goes ▸ covered.cons write⟩
        | false =>
          have first := (tried t).trans (Action.run_print_of_failed write m₁)
          exact ⟨[page], m₁, stops first ▸ .cut edited write⟩
    · obtain ⟨f, looks⟩ := v.looks page
      obtain ⟨fault, looked⟩ := Action.exists_lookup_eq_error reached
      refine ⟨[], .nil fun other first => ?_, fun t => ⟨[], m.record (.lookup page), ?_⟩⟩
      · cases first
        exact reached
      have missed : visit page (m.withTerminal t) =
          .error (.fault fault) ((m.record (.lookup page)).withTerminal t) := by
        rw [looks]
        exact Action.run_bind_of_error f (looked t)
      exact stops missed ▸ .nil rfl (.fault fault t t.write_empty)

section

variable {text : String} {request : Request} {m : Monitor}

/-- A line that visits pages tries the rows of those in reach, on every terminal. -/
theorem exists_after_eq (v : Visits visit edit row) (asks : Asks text request)
    (carries : Action.execute request = do pages.forM visit; return Flow.proceed)
    (room : ∀ page ∈ pages, page.word.toNat + PageSize.size4K.bytes.toNat < UInt64.size) :
    ∃ shown, m.target.InReach pages shown ∧ ∀ t, ∃ visited m₁,
      (m.withTerminal t).after (Monitor.runCommand text) =
        m₁.withTerminal (t.afterShowing (Text.unlines (shown.map (row m.target.space)))) ∧
      ∃ r, Covers edit (row m.target.space) m.target shown t visited m₁ r := by
  -- What is noted before the pages are visited depends on the text alone, so the rows are chosen before
  -- the terminal is.
  obtain ⟨notes, interpreted⟩ := Action.exists_notes_interpret_eq text
  let noted : Monitor := { m with journal := m.journal ++ notes }
  have read (t : Terminal) : Action.interpret text (m.withTerminal t) =
      (do pages.forM visit; return Flow.proceed : Action Flow) (noted.withTerminal t) := by
    rw [interpreted, asks, ← carries]
    rfl
  obtain ⟨shown, listed, covers⟩ := v.exists_forM noted room
  refine ⟨shown, listed, fun t => ?_⟩
  obtain ⟨visited, m₁, covered⟩ := covers t
  have ended := covered.ends.bind_pure .proceed
  rw [← read] at ended
  exact ⟨visited, m₁, ended.after_runCommand, _, covered⟩

/-- A line that visits pages shows their rows, up to the first page that is out of reach. What the row of
a page says of the target holds after the line if it holds whenever that page was visited. -/
theorem exists_printsRows (v : Visits visit edit row) {P : Target → String → Prop}
    (asks : Asks text request)
    (carries : Action.execute request = do pages.forM visit; return Flow.proceed)
    (room : ∀ page ∈ pages, page.word.toNat + PageSize.size4K.bytes.toNat < UInt64.size)
    (lines : ∀ page, Text.IsLine (row m.target.space page))
    (holds : ∀ page ∈ pages, m.target.Reaches page → ∀ visited : List VirtualAddress, page ∈ visited →
      P { m.target with space := visited.foldl edit m.target.space } (row m.target.space page)) :
    ∃ rows, m.PrintsRows text rows P := by
  obtain ⟨shown, inReach, ends⟩ := v.exists_after_eq (m := m) asks carries room
  refine ⟨shown.map (row m.target.space), ?_, fun t => ?_, fun t k taken => ?_⟩
  · exact List.forall_mem_map.2 fun page _ => lines page
  · obtain ⟨visited, m₁, after, -⟩ := ends t
    rw [after]
    rfl
  · obtain ⟨visited, m₁, after, r, covered⟩ := ends t
    rw [← List.map_take] at taken ⊢
    refine List.forall_mem_map.2 fun page member => ?_
    have there := List.mem_of_mem_take member
    have target : ((m.withTerminal t).after (Monitor.runCommand text)).target =
        { m.target with space := visited.foldl edit m.target.space } := by
      rw [after]
      exact covered.target
    exact target ▸ holds page (inReach.front.subset there) (inReach.reaches page there) visited
      (covered.each k taken page member)

end

end Visits

end DebugMonitor
