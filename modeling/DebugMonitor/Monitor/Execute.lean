import DebugMonitor.Monitor.Mapping
import DebugMonitor.Monitor.HexDump
import DebugMonitor.Monitor.Unwind

/-!
# Carrying out commands

`Monitor.runCommand` takes one line from the operator. A blank line does nothing; any other names a
command, whose arguments are read and which is then carried out. A diagnostic, from whatever stage,
is shown as one line and the session continues; only a fault leaves the monitor.

Shutting down and restarting do not come back on a machine that obeys. Where they do, a failed
shutdown is reported, and a failed restart is a fault.
-/

namespace DebugMonitor

/-- Whether the monitor goes on reading commands or gives the processor back. -/
inductive Flow where
  | proceed
  | resume
deriving DecidableEq, Repr

/-- The number by which a flow is known outside. -/
def Flow.code : Flow → Int
  | proceed => 0
  | resume => -1

namespace Action

open Command (Request Verb)

def help : Action Unit :=
  Verb.all.forM fun v => printLine s!"{v.name} - {v.description}"

/-- The line of one mark of the image, its name in a column of six. -/
def markRow (mark : String × VirtualAddress) : String :=
  "  " ++ String.ofList (mark.1.toList.rightpad 6 ' ') ++
    s!" {mark.2} (virt)  {Image.loadAddress mark.2} (phys)"

def kernelInfo : Action Unit := do
  let image := (← get).target.image
  printLine "Special kernel symbols:"
  printLine ("  _start" ++ String.ofList (List.replicate 28 ' ') ++ s!"{image.start} (phys)")
  image.marks.forM fun mark => printLine (markRow mark)
  printLine ("Kernel executable memory footprint: " ++ toString image.footprintKiB.toNat ++ "KB")

def shutdown : Action Unit := do
  perform .powerOff
  note .warn "power-off request returned"
  printLine "Shutdown failed!"

def restart : Action Unit := do
  perform .reset
  note .error "reset request returned"
  throw (.fault .restartFailed)

/-- Gives the processor back to the trapped context, for one instruction or for good. -/
def resume (singleStep : Bool) : Action Unit := do
  match (← get).context with
  | none => fail .noContext
  | some context =>
    modify fun m => { m with context := some (context.setSingleStep singleStep) }
    let what := if singleStep then "single-stepping" else "continuing"
    note .info (s!"{what} at rip 0x" ++ Text.hexPadded 16 context.rip)

def execute : Request → Action Flow
  | .help => do help; return .proceed
  | .kernelInfo => do kernelInfo; return .proceed
  | .backtrace => do backtrace; return .proceed
  | .shutdown => do shutdown; return .proceed
  | .restart => do restart; return .proceed
  | .showMappings span => do showMappings span; return .proceed
  | .setPermission permission span => do setPermission permission span; return .proceed
  | .dump view bytes => do dump view bytes; return .proceed
  | .resume singleStep => do resume singleStep; return .resume

/-- The result of reading part of a line. -/
def ofReading {α : Type} : Except Command.Diagnostic α → Action α
  | .ok a => pure a
  | .error d => fail d

/-- Reads a line and carries out what it asks for. -/
def interpret (text : String) : Action Flow := do
  let line ← ofReading (Command.Line.ofString text)
  match line.name? with
  | none => return .proceed
  | some name =>
    match Verb.ofName? name with
    | none => fail (.unknownCommand name)
    | some verb =>
      note .debug (s!"dispatching {verb.name} with " ++ toString (line.length - 1) ++ " argument(s)")
      execute (← ofReading (Request.ofLine verb line))

end Action

namespace Monitor

/-- Shows a diagnostic. Where the terminal fails too there is nobody left to tell. -/
def report (m : Monitor) (d : Command.Diagnostic) : Monitor :=
  let m := match d.notice? with
    | some n => m.note n
    | none => m
  { m with terminal := (m.terminal.write (d.message ++ "\n")).2 }

/-- Runs one line from the operator. -/
def runCommand (text : String) : EStateM Fault Monitor Flow := fun m =>
  match Action.interpret text m with
  | .ok flow m => .ok flow m
  | .error (.diagnostic d) m => .ok .proceed (m.report d)
  | .error (.fault f) m => .error f m

end Monitor

end DebugMonitor
