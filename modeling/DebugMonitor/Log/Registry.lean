import DebugMonitor.Log.Notice
import DebugMonitor.Hardware

/-!
# The logger on the host's console

A `HostLogger` writes the records its filter admits to the host's console, one line each.

A program has one logger, installed by the first `Registry.install` and never replaced. The logger
lives in a slot that every attempt fills before it asks to be installed, so an attempt that comes
too late still changes the filter of the installed logger; it does not change the overall bound,
which the first attempt set and which is silence before that. A record must pass both.
-/

namespace DebugMonitor.Log

structure HostLogger where
  filter : Filter
deriving DecidableEq, Repr

namespace HostLogger

def isEnabled (l : HostLogger) (level : Level) : Bool :=
  l.filter.admits level

/-- What the hardware sees when the logger is given a record. -/
def write (l : HostLogger) (r : Record) : List Signal :=
  if l.isEnabled r.level then Signal.hostText r.render else []

end HostLogger

/-- A logger is installed already. -/
structure AlreadyInstalled where
deriving DecidableEq, Repr

def AlreadyInstalled.message (_ : AlreadyInstalled) : String :=
  "attempted to set a logger after the logging system was already initialized"

/-- The process-wide state of logging. -/
structure Registry where
  installed : Option HostLogger := none
  bound : Filter := none
deriving DecidableEq, Repr

namespace Registry

/-- Installs a logger with filter `filter`, or answers that one is installed. -/
def install (r : Registry) (filter : Filter) : Except AlreadyInstalled Unit × Registry :=
  match r.installed with
  | none => (.ok (), ⟨some ⟨filter⟩, filter⟩)
  | some _ => (.error {}, { r with installed := some ⟨filter⟩ })

def isEnabled (r : Registry) (level : Level) : Bool :=
  r.bound.admits level && r.installed.any (·.isEnabled level)

def write (r : Registry) (record : Record) : List Signal :=
  if r.bound.admits record.level then
    match r.installed with
    | some logger => logger.write record
    | none => []
  else
    []

/-- A record is written when its level is enabled, and then as its line. -/
theorem write_eq (r : Registry) (record : Record) :
    r.write record = if r.isEnabled record.level then Signal.hostText record.render else [] := by
  unfold write isEnabled
  cases r.bound.admits record.level <;> cases r.installed <;> simp [HostLogger.write]

end Registry

end DebugMonitor.Log
