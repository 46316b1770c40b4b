import DebugMonitor.Proofs.Monitor.Conduct
import DebugMonitor.Monitor.Session

/-!
# What sessions may do

A session changes its monitor by the moves of its visits, and between the calls it exchanges the
terminal and the context. `performAll_preserves` is the induction over a session: a relation that
single moves and these exchanges preserve holds between the first and the last state, whether the
calls come to their end or one of them faults.
-/

namespace DebugMonitor.Session

open Command

/-- The lines that a call brings to the monitor, read or not. -/
def Call.lines : Call → List String
  | .command text _ => [text]
  | .visit script _ => script.filterMap id
  | .limit _ _ => []
  | .trap _ => []

section

variable {R : Monitor → Monitor → Prop} {lines : List String}

/-- What a session preserves: each move that its lines allow, and new terminals and contexts. -/
structure Preserves (lines : List String) (R : Monitor → Monitor → Prop) : Prop where
  refl : ∀ m, R m m
  trans : ∀ {a b c}, R a b → R b c → R a c
  move : ∀ m move, VisitAllows lines m move → R m (move.apply m)
  terminal : ∀ m terminal, R m { m with terminal }
  context : ∀ m context, R m { m with context }

theorem Preserves.of_leads (h : Preserves lines R) {m m' : Monitor}
    (leads : Monitor.Leads (VisitAllows lines) m m') : R m m' :=
  leads.preserves h.refl h.trans h.move

/-- A call that runs the monitor preserves what the moves of the run preserve. -/
private theorem Preserves.of_entry (h : Preserves lines R) (s : Session) (withContext : Bool)
    {m : Monitor} (leads : Monitor.Leads (VisitAllows lines) (s.enter withContext) m) :
    R s.monitor (s.leave m).monitor := by
  have entered : R s.monitor (s.enter withContext) := h.context _ _
  have left : R m (s.leave m).monitor := h.context _ _
  exact h.trans entered (h.trans (h.of_leads leads) left)

theorem perform_preserves (h : Preserves lines R) (s : Session) {call : Call}
    (sub : call.lines ⊆ lines) : R s.monitor (s.perform call).2.monitor := by
  cases call with
  | command text withContext =>
    have leads : Monitor.Leads (VisitAllows lines) (s.enter withContext)
        ((s.enter withContext).after (Monitor.runCommand text)) := by
      apply (Monitor.runCommand_leads text (s.enter withContext)).mono
      intro m move allowed
      exact .inr (allowed.mono sub)
    have kept := h.of_entry s withContext leads
    rw [perform]
    cases h : (s.enter withContext).runCommand text with
    | ok flow m =>
      rw [Monitor.after_of_ok h] at kept
      exact kept
    | error f m =>
      rw [Monitor.after_of_error h] at kept
      exact kept
  | visit script withContext =>
    have member : ∀ text, some text ∈ script → text ∈ lines := by
      intro text member
      exact sub (List.mem_filterMap.2 ⟨some text, member, rfl⟩)
    exact h.of_entry s withContext (Monitor.run_leads member (s.enter withContext))
  | limit l later => exact h.terminal _ _
  | trap context => exact h.refl _

theorem performAll_preserves (h : Preserves lines R) (s : Session) {calls : List Call}
    (sub : ∀ call ∈ calls, call.lines ⊆ lines) : R s.monitor (s.performAll calls).monitor := by
  induction calls generalizing s with
  | nil => exact h.refl _
  | cons call calls ih =>
    rw [List.forall_mem_cons] at sub
    have first := perform_preserves h s sub.1
    rw [performAll]
    split
    · rename_i performed
      rw [performed] at first
      exact h.trans first (ih _ sub.2)
    · rename_i performed
      rw [performed] at first
      exact first

end

end DebugMonitor.Session
