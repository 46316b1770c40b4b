/-!
# Log notices

A notice is a text with the weight its writer gives it, from `error`, the gravest, to `trace`. A
filter is a bound on the weight, or `none` for silence: it admits the notices at least as grave as
its bound.
-/

namespace DebugMonitor.Log

inductive Level where
  | error
  | warn
  | info
  | debug
  | trace
deriving DecidableEq, Repr

namespace Level

def all : List Level := [error, warn, info, debug, trace]

def label : Level → String
  | error => "ERROR"
  | warn => "WARN"
  | info => "INFO"
  | debug => "DEBUG"
  | trace => "TRACE"

/-- The place of a level in the order of verbosity. -/
def verbosity : Level → Nat
  | error => 1
  | warn => 2
  | info => 3
  | debug => 4
  | trace => 5

end Level

/-- The most verbose level that passes, or `none` if no level does. -/
abbrev Filter := Option Level

namespace Filter

def label : Filter → String
  | none => "OFF"
  | some level => level.label

def admits : Filter → Level → Bool
  | none, _ => false
  | some bound, level => level.verbosity ≤ bound.verbosity

end Filter

structure Notice where
  level : Level
  text : String
deriving DecidableEq, Repr

/-- A notice with the name of the part of the program that wrote it. -/
structure Record extends Notice where
  target : String
deriving DecidableEq, Repr

/-- The line of a record. -/
def Record.render (r : Record) : String :=
  s!"[{r.level.label}] {r.target}: {r.text}\n"

end DebugMonitor.Log
