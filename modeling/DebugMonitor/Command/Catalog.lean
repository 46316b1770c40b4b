import DebugMonitor.Command.Diagnostic

/-!
# The commands

Ten commands, found by their exact name. Upper and lower case differ, and no abbreviation is
accepted.
-/

namespace DebugMonitor.Command

inductive Verb where
  | help
  | kernelInfo
  | backtrace
  | shutdown
  | restart
  | showMappings
  | setPermission
  | dump
  | resume
  | step
deriving DecidableEq, Repr

namespace Verb

/-- All commands, in the order in which `help` lists them. -/
def all : List Verb :=
  [help, kernelInfo, backtrace, shutdown, restart, showMappings, setPermission, dump, resume, step]

def name : Verb → String
  | help => "help"
  | kernelInfo => "kerninfo"
  | backtrace => "backtrace"
  | shutdown => "shutdown"
  | restart => "restart"
  | showMappings => "showmappings"
  | setPermission => "setperm"
  | dump => "dump"
  | resume => "c"
  | step => "s"

def description : Verb → String
  | help => "Display this list of commands"
  | kernelInfo => "Display information about the kernel"
  | backtrace => "Display stack backtrace"
  | shutdown => "Shutdown the kernel"
  | restart => "Restart the kernel"
  | showMappings => "Display the physical page mappings of a virtual range"
  | setPermission => "Set the user/write permissions of a virtual range"
  | dump => "Dump the contents of a virtual or physical range"
  | resume => "Continue execution of the trapped context"
  | step => "Execute one instruction of the trapped context"

/-- The arguments a command takes, as its usage line shows them. -/
def synopsis : Verb → String
  | showMappings => "START [END]"
  | setPermission => "PERM START [END]"
  | dump => "TYPE START [END]"
  | _ => ""

def ofName? (name : String) : Option Verb :=
  all.find? (·.name == name)

def usage (v : Verb) : Diagnostic :=
  .usage v.name v.synopsis

theorem mem_all (v : Verb) : v ∈ all := by
  cases v <;> decide

theorem ofName?_eq_some_iff {name : String} {v : Verb} : ofName? name = some v ↔ v.name = name := by
  constructor
  · intro h
    simpa using List.find?_some h
  · rintro rfl
    cases v <;> decide

end Verb

end DebugMonitor.Command
