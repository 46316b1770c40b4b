import DebugMonitor.Command.Line
import DebugMonitor.Command.Catalog

/-!
# Requests

A request is a command whose arguments have been read and found valid. Arguments are read from left
to right and the first that is wrong decides the diagnostic; words beyond those a command takes are
ignored. Reading a request needs nothing but the line, so a refused line has no effect.
-/

namespace DebugMonitor.Command

/-- The two permissions of a mapping that an operator can change. -/
structure Permission where
  user : Bool
  writable : Bool
deriving DecidableEq, Repr

/-- Reads a permission: `U` or `-`, then `W` or `-`. -/
def Permission.ofToken (token : String) : Except Diagnostic Permission :=
  match token.toList with
  | [u, w] =>
    if (u = 'U' ∨ u = '-') ∧ (w = 'W' ∨ w = '-') then .ok ⟨u = 'U', w = 'W'⟩
    else .error .invalidPermission
  | _ => .error .invalidPermission

/-- The address space that bytes are shown from. -/
inductive View where
  | virtual
  | physical
deriving DecidableEq, Repr

def View.ofToken (token : String) : Except Diagnostic View :=
  if token = "V" then .ok .virtual
  else if token = "P" then .ok .physical
  else .error .invalidAddressType

/-- A nonempty run of bytes. -/
structure ByteSpan where
  start : UInt64
  stop : UInt64
  start_lt_stop : start < stop
deriving DecidableEq

def readBound (token : String) : Except Diagnostic UInt64 :=
  (Text.readNumber token).mapError fun e => .invalidAddress (.notANumber e)

/-- Reads the bounds of a span of 4 KiB pages; without an end it is the one page at `start`. -/
def readSpan (start : String) (stop? : Option String) : Except Diagnostic (PageSpan .size4K) := do
  let start ← readBound start
  let span ← match stop? with
    | some stop => pure (PageSpan.ofBounds .size4K ⟨start⟩ ⟨← readBound stop⟩)
    | none => pure (PageSpan.single .size4K ⟨start⟩)
  span.mapError fun e => .invalidAddress (.badSpan e)

/-- The number of bytes in a full row of a dump. -/
def bytesPerRow : UInt64 := 16

/-- Reads the bounds of a run of bytes; without an end it is one row. -/
def readBytes (start : String) (stop? : Option String) : Except Diagnostic ByteSpan := do
  let start ← readBound start
  let stop ← match stop? with
    | some stop => readBound stop
    | none =>
      match Word.add? start bytesPerRow with
      | some stop => pure stop
      | none => throw (.invalidAddress .noBytes)
  if h : start < stop then
    return ⟨start, stop, h⟩
  else
    throw (.invalidAddress .noBytes)

inductive Request where
  | help
  | kernelInfo
  | backtrace
  | shutdown
  | restart
  | showMappings (span : PageSpan .size4K)
  | setPermission (permission : Permission) (span : PageSpan .size4K)
  | dump (view : View) (bytes : ByteSpan)
  | resume (singleStep : Bool)
deriving DecidableEq

/-- Reads the arguments that a command takes. -/
def Request.ofLine (verb : Verb) (line : Line) : Except Diagnostic Request :=
  match verb with
  | .help => .ok .help
  | .kernelInfo => .ok .kernelInfo
  | .backtrace => .ok .backtrace
  | .shutdown => .ok .shutdown
  | .restart => .ok .restart
  | .showMappings =>
    match line.get? 1 with
    | some start => return .showMappings (← readSpan start (line.get? 2))
    | none => .error verb.usage
  | .setPermission =>
    match line.get? 1, line.get? 2 with
    | some permission, some start =>
      return .setPermission (← Permission.ofToken permission) (← readSpan start (line.get? 3))
    | _, _ => .error verb.usage
  | .dump =>
    match line.get? 1, line.get? 2 with
    | some view, some start =>
      return .dump (← View.ofToken view) (← readBytes start (line.get? 3))
    | _, _ => .error verb.usage
  | .resume => .ok (.resume false)
  | .step => .ok (.resume true)

end DebugMonitor.Command
