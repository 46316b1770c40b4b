import DebugMonitor.Monitor.State
import DebugMonitor.Command.Diagnostic

/-!
# Actions

A command is an action on the monitor. It either comes to its end or is cut short, by a diagnostic
or by a fault; what it did before stays done in both cases. The operations here are the only ones by
which commands print, look at the target or change it, and each leaves its mark in the journal or
the trace.
-/

namespace DebugMonitor

/-- Why a command did not come to its end. -/
inductive Halt where
  | diagnostic (d : Command.Diagnostic)
  | fault (f : Fault)
deriving DecidableEq, Repr

abbrev Action := EStateM Halt Monitor

namespace Action

variable {α : Type}

/-- The result of a computation that may fault. -/
def ofExcept : Except Fault α → Action α
  | .ok a => pure a
  | .error f => throw (.fault f)

def fail (d : Command.Diagnostic) : Action α :=
  throw (.diagnostic d)

/-- Writes to the terminal; a failure there ends the command. -/
def print (text : String) : Action Unit := fun m =>
  match m.terminal.write text with
  | (true, terminal) => .ok () { m with terminal }
  | (false, terminal) => .error (.diagnostic .consoleFailed) { m with terminal }

def printLine (text : String) : Action Unit :=
  print (text ++ "\n")

def note (level : Log.Level) (text : String) : Action Unit :=
  modify (·.note ⟨level, text⟩)

def perform (e : Effect) : Action Unit :=
  modify (·.record e)

def readByte (va : VirtualAddress) : Action UInt8 := do
  perform (.readByte va)
  return (← get).target.byte va

def readWord (va : VirtualAddress) : Action UInt64 := do
  perform (.readWord va)
  return (← get).target.word va

/-- The leaf that maps an address; where there is none the journal tells at which table. -/
def lookup (va : VirtualAddress) : Action (Option Paging.Leaf) := do
  perform (.lookup va)
  match ← ofExcept ((← get).target.walk va) with
  | .ok leaf => return some leaf
  | .error gap =>
    modify (·.note (gap.notice va))
    return none

/-- Writes the entry of a leaf back to memory. -/
def store (leaf : Paging.Leaf) : Action Unit :=
  modify fun m => { m with target := { m.target with space := m.target.space.store leaf } }

end Action

end DebugMonitor
