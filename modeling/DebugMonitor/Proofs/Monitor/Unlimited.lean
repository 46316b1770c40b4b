import DebugMonitor.Monitor.Execute
import DebugMonitor.Proofs.Monitor.Move

/-!
# Runs on a terminal without a limit

On a terminal that takes everything a write is an append. Each operation of an action has an
equation for its run here; chained by `run_bind` they run an action step by step.
-/

namespace DebugMonitor

namespace Monitor

/-- The terminal takes everything. -/
def Unlimited (m : Monitor) : Prop :=
  m.terminal.limit = none

/-- The monitor after a text was shown on a terminal that takes everything. -/
def say (m : Monitor) (text : String) : Monitor :=
  { m with terminal := { m.terminal with shown := m.terminal.shown ++ text } }

/-- The monitor after several effects were recorded. -/
def recordAll (m : Monitor) (effects : List Effect) : Monitor :=
  { m with trace := m.trace ++ effects.toArray }

variable {m : Monitor}

theorem Unlimited.say (h : m.Unlimited) (text : String) : (m.say text).Unlimited := h

@[simp] theorem say_empty (m : Monitor) : m.say "" = m := by
  rw [say, String.append_empty]

@[simp] theorem say_say (m : Monitor) (a b : String) : (m.say a).say b = m.say (a ++ b) := by
  simp only [say, String.append_assoc]

@[simp] theorem toList_trace_recordAll (m : Monitor) (effects : List Effect) :
    (m.recordAll effects).trace.toList = m.trace.toList ++ effects :=
  Array.toList_append

@[simp] theorem recordAll_nil (m : Monitor) : m.recordAll [] = m := by
  rw [recordAll, Array.append_empty]

@[simp] theorem recordAll_recordAll (m : Monitor) (a b : List Effect) :
    (m.recordAll a).recordAll b = m.recordAll (a ++ b) := by
  simp only [recordAll, Array.append_assoc, List.append_toArray]

end Monitor

namespace Action

open Monitor (Unlimited)

variable {α : Type} {m : Monitor}

theorem run_ofExcept {r : Except Fault α} {x : α} (h : r = .ok x) (m : Monitor) :
    ofExcept r m = .ok x m := by
  rw [h]
  rfl

theorem run_note (m : Monitor) (level : Log.Level) (text : String) :
    note level text m = .ok () (m.note ⟨level, text⟩) := rfl

theorem run_perform (m : Monitor) (e : Effect) : perform e m = .ok () (m.record e) := rfl

theorem run_store (m : Monitor) (leaf : Paging.Leaf) :
    store leaf m =
      .ok () { m with target := { m.target with space := m.target.space.store leaf } } := rfl

theorem run_print (unlimited : m.Unlimited) (text : String) :
    print text m = .ok () (m.say text) := by
  rw [print, Terminal.write_of_limit_eq_none unlimited]
  rfl

end Action

namespace Monitor

variable {m : Monitor}

/-- A diagnostic is shown as one line, and nothing else but the journal changes. -/
theorem exists_report_eq (unlimited : m.Unlimited) (d : Command.Diagnostic) :
    ∃ journal, m.report d = { m.say (d.message ++ "\n") with journal } := by
  have written (journal : Array Log.Notice) :
      { m with journal, terminal := (m.terminal.write (d.message ++ "\n")).2 } =
        { m.say (d.message ++ "\n") with journal } := by
    rw [Terminal.write_of_limit_eq_none unlimited]
    rfl
  rw [report]
  cases d.notice? with
  | none => exact ⟨m.journal, written m.journal⟩
  | some n => exact ⟨m.journal.push n, written (m.journal.push n)⟩

end Monitor

end DebugMonitor
