import DebugMonitor.Proofs.Cpu.Flags
import DebugMonitor.Proofs.Monitor.Serving
import DebugMonitor.Proofs.Session.Conduct

/-!
# Sessions and the trapped context

A session leaves the context as it was, up to the trap flag. The flag is the one that the last
resuming line left, among the lines that were run with the context at hand: `linesWithContext` lists
these, and `context_performAll` is the induction over the calls. Between two traps nothing else in a
session has a part in the context, whatever the lines are, whatever the terminal does and however
the calls end.
-/

namespace DebugMonitor

open Command

namespace Cpu.Context

/-- Of several lines the last one that resumes decides. -/
theorem foldl_resumeBy (lines : List String) (c : Context) :
    lines.foldl resumeBy c =
      match (lines.filterMap resuming?).getLast? with
      | some on => c.setSingleStep on
      | none => c := by
  induction lines generalizing c with
  | nil => rfl
  | cons text lines ih =>
    rw [List.foldl_cons, ih, resumeBy]
    cases asked : resuming? text with
    | none => rw [List.filterMap_cons_none asked]
    | some on =>
      rw [List.filterMap_cons_some asked, List.getLast?_cons]
      cases (lines.filterMap resuming?).getLast? with
      | none => rfl
      | some last => exact c.setSingleStep_setSingleStep on last

end Cpu.Context

namespace Session

/-- Whether a call brings the context at hand. -/
def Call.hasContext : Call → Bool
  | .command _ withContext => withContext
  | .visit _ withContext => withContext
  | .limit _ _ => false
  | .trap _ => false

/-- The lines that a call has run: those of a visit are what it read of its script. -/
def Call.ran (call : Call) (outcome : Outcome) : List String :=
  match call with
  | .command text _ => [text]
  | .visit script _ => (script.take (script.length - outcome.unread.length)).filterMap id
  | .limit _ _ => []
  | .trap _ => []

/-- The lines that a session runs with the context at hand, in order. -/
def linesWithContext (s : Session) : List Call → List String
  | [] => []
  | call :: calls =>
    let ran := if call.hasContext then call.ran (s.perform call).1 else []
    match s.perform call with
    | (⟨.ok _, _⟩, s) => ran ++ s.linesWithContext calls
    | (⟨.error _, _⟩, _) => ran

theorem context_leave_command (s : Session) (withContext : Bool) (text : String) :
    (s.leave ((s.enter withContext).after (Monitor.runCommand text))).context =
      if withContext then s.context.resumeBy text else s.context := by
  rw [leave, Monitor.context_runCommand, enter]
  cases withContext <;> rfl

theorem context_perform_visit (s : Session) (script : List (Option String)) (withContext : Bool) :
    (s.perform (.visit script withContext)).2.context =
      (if withContext then Call.ran (.visit script withContext)
        (s.perform (.visit script withContext)).1 else []).foldl Cpu.Context.resumeBy s.context := by
  obtain ⟨read, split, context⟩ :=
    Monitor.exists_read_serve (s.enter withContext).prompt script (s.enter withContext).greet
  change script = read ++ ((s.enter withContext).run script).unread at split
  have taken : script.take (script.length - ((s.enter withContext).run script).unread.length) =
      read := by
    have length := congrArg List.length split
    rw [List.length_append] at length
    rw [length, Nat.add_sub_cancel]
    exact (congrArg (List.take read.length) split).trans List.take_left
  have ran : Call.ran (.visit script withContext) (s.perform (.visit script withContext)).1 =
      read.filterMap id :=
    congrArg (List.filterMap id) taken
  have left : (s.perform (.visit script withContext)).2.context =
      ((s.enter withContext).run script).monitor.context.getD s.context := rfl
  rw [ran, left, Monitor.run, context, Monitor.context_greet, enter]
  cases withContext <;> rfl

/-- A call that brings no new context runs its lines on the one at hand. -/
theorem context_perform (s : Session) {call : Call} (same : ∀ c, call ≠ .trap c) :
    (s.perform call).2.context =
      (if call.hasContext then call.ran (s.perform call).1 else []).foldl
        Cpu.Context.resumeBy s.context := by
  cases call with
  | command text withContext =>
    have left := context_leave_command s withContext text
    rw [perform, Call.hasContext]
    cases h : (s.enter withContext).runCommand text with
    | ok flow m =>
      rw [Monitor.after_of_ok h] at left
      cases withContext <;> exact left
    | error f m =>
      rw [Monitor.after_of_error h] at left
      cases withContext <;> exact left
  | visit script withContext => exact context_perform_visit s script withContext
  | limit l later => rfl
  | trap c => exact absurd rfl (same c)

theorem context_performAll (s : Session) {calls : List Call}
    (same : ∀ call ∈ calls, ∀ c, call ≠ .trap c) :
    (s.performAll calls).context =
      (s.linesWithContext calls).foldl Cpu.Context.resumeBy s.context := by
  induction calls generalizing s with
  | nil => rfl
  | cons call calls ih =>
    rw [List.forall_mem_cons] at same
    have first := context_perform s same.1
    rw [performAll, linesWithContext]
    cases performed : s.perform call with
    | mk outcome s' =>
      rw [performed] at first
      obtain ⟨exit, unread⟩ := outcome
      cases exit with
      | error f => exact first
      | ok flow =>
        dsimp only at first ⊢
        rw [ih s' same.2, List.foldl_append, first]

/-- What every session does to the context between two traps, with any lines and any failures of the
terminal: nothing but to set the trap flag, which is bit 8, and that as the last resuming line says
that was run with the context at hand. A line resumes exactly if it is one of these. -/
theorem performAll_keeps_context (s : Session) {calls : List Call}
    (same : ∀ call ∈ calls, ∀ c, call ≠ .trap c) :
    (s.performAll calls).context =
      { s.context with flags := (s.performAll calls).context.flags } ∧
    (∀ i, Word.testBit (s.performAll calls).context.flags.bits i =
      if i = 8 then
        (((s.linesWithContext calls).filterMap resuming?).getLast?).getD
          (Word.testBit s.context.flags.bits 8)
      else Word.testBit s.context.flags.bits i) ∧
    (∀ (m : Monitor) (text : String), (∃ m', m.runCommand text = .ok .resume m') ↔
      m.context.isSome = true ∧ 1 ≤ (Line.wordsOf text).length ∧
        (Line.wordsOf text).length ≤ 15 ∧
        ((Line.wordsOf text).head? = some "c" ∨ (Line.wordsOf text).head? = some "s")) := by
  have context := context_performAll s same
  rw [Cpu.Context.foldl_resumeBy] at context
  refine ⟨?_, ?_, ?_⟩
  · rw [context]
    cases ((s.linesWithContext calls).filterMap resuming?).getLast? <;> rfl
  · intro i
    rw [context]
    cases ((s.linesWithContext calls).filterMap resuming?).getLast? with
    | some on => exact s.context.testBit_setSingleStep on i
    | none =>
      by_cases trap : i = 8
      · rw [if_pos trap, trap]
        rfl
      · rw [if_neg trap]
  · intro m text
    rw [Monitor.exists_runCommand_eq_resume_iff, isSome_resuming?_iff]

/-- A session on a terminal that fails, with a single step and lines that resume nothing after it. -/
def steppedCalls : List Call :=
  [.limit (some ⟨3, false⟩), .visit [some "help", none, some "s", some "c"] true,
    .command "c" false, .command "continue" true, .command "help" true]

theorem performAll_keeps_context_stepped :
    Word.testBit (performAll {} steppedCalls).context.flags.bits 8 = true := by
  have same : ∀ call ∈ steppedCalls, ∀ c, call ≠ .trap c := by
    simp [steppedCalls]
  obtain ⟨-, bits, -⟩ := performAll_keeps_context {} same
  refine (bits 8).trans ?_
  decide +kernel

end Session

end DebugMonitor
