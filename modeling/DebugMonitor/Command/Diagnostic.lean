import DebugMonitor.Text.Numeral
import DebugMonitor.Page.Span
import DebugMonitor.Log.Notice

/-!
# Diagnostics

A command that cannot be carried out, or that cannot go on printing, ends with a diagnostic: one
line for the operator, after which the session continues. Bad bounds all read the same on the
console; what was wrong with them goes to the log.
-/

namespace DebugMonitor.Command

/-- What is wrong with the bounds of a range. -/
inductive BadBounds where
  | notANumber (e : Text.NotANumber)
  | badSpan (e : SpanError)
  /-- A range of bytes is empty or leaves the address space. -/
  | noBytes
deriving DecidableEq, Repr

namespace BadBounds

/-- The notice that explains bad bounds; a range without bytes explains itself. -/
def notice? : BadBounds → Option Log.Notice
  | notANumber e => some ⟨.debug, e.message⟩
  | badSpan e => some ⟨.debug, e.message⟩
  | noBytes => none

/-- The notice as a log record of the part of the program that writes it. -/
def record? (b : BadBounds) : Option Log.Record :=
  b.notice?.map fun n => ⟨n, "kernel_monitor::error"⟩

end BadBounds

inductive Diagnostic where
  | usage (name synopsis : String)
  | invalidAddress (cause : BadBounds)
  | invalidPermission
  | invalidAddressType
  | noContext
  | unknownCommand (name : String)
  | tooManyArguments (limit : Nat)
  | consoleFailed
deriving DecidableEq, Repr

namespace Diagnostic

def message : Diagnostic → String
  | usage name synopsis => s!"Usage: {name} {synopsis}"
  | invalidAddress _ => "Invalid address!"
  | invalidPermission => "Invalid permission!"
  | invalidAddressType => "Invalid address type!"
  | noContext => "No trapframe found."
  | unknownCommand name => s!"Unknown command '{name}'"
  | tooManyArguments limit => s!"Too many arguments (max {limit})"
  | consoleFailed => "console write failed"

def notice? : Diagnostic → Option Log.Notice
  | invalidAddress cause => cause.notice?
  | _ => none

end Diagnostic

end DebugMonitor.Command
