import DebugMonitor.Terminal
import DebugMonitor.Target
import DebugMonitor.Hardware
import DebugMonitor.Cpu.Context

/-!
# The state of a monitor

A monitor is bound to a terminal and a target. It keeps the options it was made with, whether it has
greeted the operator, and, while it is entered from a trap, the trapped context. Beside them stand
two records of what happened: the `journal` of log notices, and the `trace` of everything that was
asked of the target, each in order.
-/

namespace DebugMonitor

/-- What a monitor asks of its target, apart from facts that never change. -/
inductive Effect where
  /-- The leaf that maps an address is looked up. -/
  | lookup (va : VirtualAddress)
  /-- A cached mapping is dropped. -/
  | flush (va : VirtualAddress)
  | readByte (va : VirtualAddress)
  | readWord (va : VirtualAddress)
  | powerOff
  | reset
deriving DecidableEq, Repr

/-- The hardware signals that carry out an effect; reading memory needs none. -/
def Effect.signals : Effect → List Signal
  | lookup _ | readByte _ | readWord _ => []
  | flush va => [.invlpg va]
  | powerOff => Signal.powerOff
  | reset => Signal.reset

structure Options where
  /-- Where the frames of a backtrace stop to be kernel frames. -/
  stackFloor : VirtualAddress := AddressMap.stackFloor
  /-- The greatest number of frames a backtrace shows. -/
  maxFrames : UInt64 := 64
  /-- Whether the trapped context is shown on entry. -/
  showContext : Bool := true
deriving DecidableEq, Repr

structure Monitor where
  terminal : Terminal := {}
  target : Target := {}
  options : Options := {}
  greeted : Bool := false
  context : Option Cpu.Context := none
  journal : Array Log.Notice := #[]
  trace : Array Effect := #[]

namespace Monitor

def note (m : Monitor) (n : Log.Notice) : Monitor :=
  { m with journal := m.journal.push n }

def record (m : Monitor) (e : Effect) : Monitor :=
  { m with trace := m.trace.push e }

end Monitor

end DebugMonitor
