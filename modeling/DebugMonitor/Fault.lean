/-!
# Faults

A fault ends the whole operation it occurs in: the monitor has no answer to give, and nothing after
the point of the fault runs. What happened before it stays. Faults are told apart from the mistakes
of an operator, which are reported and do not end the session.
-/

namespace DebugMonitor

/-- Why an operation cannot go on. -/
inductive Fault where
  | addOverflow
  | subOverflow
  | mulOverflow
  /-- A value does not fit the bit field it is stored into; `max` is the greatest that does. -/
  | valueOutOfBounds (max : Nat)
  | indexOutOfBounds (size index : Nat)
  /-- The machine went on running after it was asked to reset. -/
  | restartFailed
deriving DecidableEq, Repr

namespace Fault

def message : Fault → String
  | addOverflow => "attempt to add with overflow"
  | subOverflow => "attempt to subtract with overflow"
  | mulOverflow => "attempt to multiply with overflow"
  | valueOutOfBounds max => s!"value out of bounds [0, {max}]"
  | indexOutOfBounds size index =>
    s!"index out of bounds: the len is {size} but the index is {index}"
  | restartFailed => "Restart failed!"

end Fault

end DebugMonitor
