import DebugMonitor.Proofs.Command.Refusal
import DebugMonitor.Proofs.Monitor.Output
import DebugMonitor.Proofs.Monitor.Resuming

/-!
# Lines that a monitor refuses

On a terminal that takes everything, a line that `refusal?` names is answered by its message and
changes nothing but the terminal and the journal; a line that it does not name is carried out, and
what it shows, if anything, is not a diagnostic. So the operator sees a diagnostic exactly where the
words of the line, or the missing context, call for one.
-/

namespace DebugMonitor.Monitor

open Command

variable {text : String} {m : Monitor}

/-- A context at hand is always resumed. -/
theorem exists_execute_resume (on : Bool) (h : m.context.isSome = true) :
    ∃ m', Action.execute (.resume on) m = .ok .resume m' := by
  obtain ⟨context, present⟩ := Option.isSome_iff_exists.1 h
  obtain ⟨notice, resumed⟩ := Action.exists_notice_execute_resume context on
  exact ⟨_, resumed m present⟩

/-- A diagnostic that stops a line before it has any effect. -/
private theorem runCommand_of_diagnostic {d : Diagnostic} {journal : Array Log.Notice}
    (unlimited : m.Unlimited)
    (h : Action.interpret text m = .error (.diagnostic d) { m with journal }) :
    ∃ journal, m.runCommand text =
      .ok .proceed { m.say (d.message ++ "\n") with journal } := by
  obtain ⟨journal', reported⟩ := exists_report_eq (m := { m with journal }) unlimited d
  refine ⟨journal', ?_⟩
  rw [runCommand, h]
  exact congrArg (EStateM.Result.ok Flow.proceed) reported

/-- A line whose request opens like a result still does when it has been run. -/
private theorem prefix_of_opens {request : Request} {m₀ m' : Monitor}
    (opens : Action.Opens (Action.execute request) m₀)
    (h : Action.interpret text m = Action.execute request m₀)
    (run : m.runCommand text = .ok .proceed m') :
    ∃ c ∈ openings, m₀.screen ++ [c] <+: m'.screen := by
  rw [runCommand, h] at run
  rcases opens with ⟨f, m₁, faulted⟩ | ⟨c, opening, shown⟩
  · rw [faulted] at run
    cases run
  · refine ⟨c, opening, ?_⟩
    cases executed : Action.execute request m₀ with
    | ok flow m₁ =>
      rw [after_of_ok executed] at shown
      rw [executed] at run
      cases run
      exact shown
    | error halt m₁ =>
      rw [after_of_error executed] at shown
      rw [executed] at run
      cases halt with
      | fault f => cases run
      | diagnostic d =>
        cases run
        have reported : Leads (LinesAllow [text]) m₁ (m₁.report d) := report_leads m₁ d
        exact shown.trans reported.prefix_screen

/-- What begins like a result is not a single diagnostic. -/
private theorem shown_ne_of_prefix {m' : Monitor} {c : Char} (opening : c ∈ openings)
    (begins : m.screen ++ [c] <+: m'.screen) (d : Diagnostic) :
    m'.terminal.shown ≠ m.terminal.shown ++ (d.message ++ "\n") := by
  intro same
  have message : m'.screen = m.screen ++ (d.message.toList ++ "\n".toList) := by
    rw [screen, same, String.toList_append, String.toList_append]
    rfl
  rw [message, List.prefix_append_right_inj] at begins
  obtain ⟨rest, hrest⟩ := List.head?_eq_some_iff.1 d.head?_message
  rw [hrest] at begins
  obtain ⟨rfl, -⟩ := List.cons_prefix_cons.1 begins
  exact d.letter_not_mem_openings opening

/-- A line is refused exactly when `refusal?` says so, with that message and without any effect on
the target, the context, the options or the trace. -/
theorem runCommand_refusal (text : String) (unlimited : m.Unlimited) :
    match refusal? m.context.isSome (Line.wordsOf text) with
    | some message => ∃ journal,
      m.runCommand text = .ok .proceed { m.say (message ++ "\n") with journal }
    | none => ∀ (d : Diagnostic) m', m.runCommand text = .ok .proceed m' →
      m'.terminal.shown ≠ m.terminal.shown ++ (d.message ++ "\n") := by
  obtain ⟨journal, interpreted⟩ := Action.exists_interpret_eq text m
  have reads := Request.ofText_reads m.context.isSome text
  generalize refusal? m.context.isSome (Line.wordsOf text) = refusal at reads
  generalize Request.ofText text = read at reads interpreted
  cases reads with
  | refused d => exact runCommand_of_diagnostic unlimited interpreted
  | noContext on missing =>
    have none : m.context = none := Option.isNone_iff_eq_none.1 (by simpa using missing)
    have stopped := execute_resume_of_none (m := { m with journal }) on none
    exact runCommand_of_diagnostic unlimited (interpreted.trans stopped)
  | blank =>
    intro d m' run same
    rw [runCommand, interpreted] at run
    cases run
    have length : m.terminal.shown.length = _ := congrArg String.length same
    have newline : "\n".length = 1 := rfl
    rw [String.length_append, String.length_append, newline] at length
    omega
  | accepted request context =>
    intro d m' run
    have still : Unlimited { m with journal } := unlimited
    by_cases resumes : ∃ on, request = .resume on
    · obtain ⟨on, rfl⟩ := resumes
      obtain ⟨m₁, executed⟩ :=
        exists_execute_resume (m := { m with journal }) on (context on rfl)
      rw [runCommand, interpreted.trans executed] at run
      cases run
    · have stays : ∀ on, request ≠ .resume on := fun on same => resumes ⟨on, same⟩
      obtain ⟨c, opening, begins⟩ :=
        prefix_of_opens (Action.execute_opens still request stays) interpreted run
      exact shown_ne_of_prefix opening begins d

/-- The type of a dump is checked before its bounds. -/
theorem runCommand_refusal_dump :
    ∃ journal, runCommand "dump Q 0x10 8" {} =
      .ok .proceed { say {} "Invalid address type!\n" with journal } := by
  have unlimited : Unlimited {} := rfl
  have refused : refusal? false (Line.wordsOf "dump Q 0x10 8") = some "Invalid address type!" := rfl
  have answered := runCommand_refusal "dump Q 0x10 8" unlimited
  dsimp only [Option.isSome_none] at answered
  rw [refused] at answered
  exact answered

end DebugMonitor.Monitor
