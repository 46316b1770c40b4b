import DebugMonitor.Monitor.Serve

/-!
# Sessions

A session is a monitor together with the context of an interrupted program. Each call runs one line
or enters the monitor, with the context at hand or without it; between calls the terminal may start
or stop to fail, and another trap may bring another context. What a call changes in the context is
kept for the calls after it. A call that faults is the last one of its session.
-/

namespace DebugMonitor

structure Session where
  monitor : Monitor := {}
  context : Cpu.Context := {}

inductive Session.Call where
  | command (text : String) (withContext : Bool)
  | visit (script : List (Option String)) (withContext : Bool)
  /-- From here on the terminal takes as many characters as the limit says, and as the later limits
  say when it is lifted. -/
  | limit (l : Option Terminal.Limit) (later : List Terminal.Limit := [])
  /-- From here on the context at hand is this one. -/
  | trap (context : Cpu.Context)

/-- How a call ended, and what it left of its script. -/
structure Session.Outcome where
  exit : Except Fault (Option Flow)
  unread : List (Option String) := []

namespace Session

/-- The monitor as a call finds it. -/
def enter (s : Session) (withContext : Bool) : Monitor :=
  { s.monitor with context := if withContext then some s.context else none }

/-- The session after a call that leaves the monitor in a state. -/
def leave (s : Session) (m : Monitor) : Session :=
  ⟨{ m with context := none }, m.context.getD s.context⟩

/-- Makes one call. A visit that still waits for a line has no flow to answer. -/
def perform (s : Session) : Call → Outcome × Session
  | .command text withContext =>
    match (s.enter withContext).runCommand text with
    | .ok flow m => (⟨.ok (some flow), []⟩, s.leave m)
    | .error f m => (⟨.error f, []⟩, s.leave m)
  | .visit script withContext =>
    let visit := (s.enter withContext).run script
    let exit := match visit.exit with
      | .resumed => .ok (some .resume)
      | .waiting => .ok none
      | .faulted f => .error f
    (⟨exit, visit.unread⟩, s.leave visit.monitor)
  | .limit l later =>
    (⟨.ok none, []⟩, { s with monitor :=
      { s.monitor with terminal := { s.monitor.terminal with limit := l, later } } })
  | .trap context => (⟨.ok none, []⟩, { s with context })

/-- Makes calls one after another, up to the first that faults. -/
def performAll (s : Session) : List Call → Session
  | [] => s
  | call :: calls =>
    match s.perform call with
    | (⟨.ok _, _⟩, s) => s.performAll calls
    | (⟨.error _, _⟩, s) => s

end Session

end DebugMonitor
