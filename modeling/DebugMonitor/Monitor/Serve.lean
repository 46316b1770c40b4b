import DebugMonitor.Monitor.Execute

/-!
# Serving an operator

Entering the monitor greets the operator and then reads commands until one resumes the trapped
context. The prompt is chosen at the entry: while the context is single-stepped it names the user
environment, otherwise it is plain. A read that fails is tried again.

The input of an entry is a finite script of what the reads answer. When it is used up the visit ends
with one more prompt, as the monitor would wait there.
-/

namespace DebugMonitor

/-- How a visit to the monitor ended. -/
inductive Exit where
  | resumed
  /-- The monitor waits for a line that the script does not have. -/
  | waiting
  | faulted (f : Fault)
deriving DecidableEq, Repr

structure Visit where
  exit : Exit
  /-- What was left of the script. -/
  unread : List (Option String)
  monitor : Monitor

namespace Monitor

def plainPrompt : String := "K> "

/-- Whether the monitor was entered after a single step. -/
def isStepping (m : Monitor) : Bool :=
  m.context.any (·.isSingleStep)

def prompt (m : Monitor) : String :=
  if m.isStepping then
    match m.target.environment with
    | some env => "[" ++ Text.hexPadded 8 env.toUInt64 ++ "] step> "
    | none => "[--------] step> "
  else
    plainPrompt

/-- The lines that open a visit: where a single step ended, or a welcome on the first visit. -/
def heading (m : Monitor) : String :=
  match m.context with
  | some context =>
    if context.isSingleStep then
      "Single-step trap at rip 0x" ++ Text.hexPadded 16 context.rip ++ "\n"
    else
      welcome
  | none => welcome
where
  welcome : String :=
    if m.greeted then ""
    else "Welcome to the kernel monitor!\nType 'help' for a list of commands.\n"

/-- Shows the heading and then the trapped context; stops where the terminal fails. -/
def greeting : Action Unit := do
  Action.print (← get).heading
  modify fun m => { m with greeted := true }
  let m ← get
  match m.context with
  | some context => if m.options.showContext then Action.print context.render
  | none => pure ()

def greet (m : Monitor) : Monitor :=
  match greeting m with
  | .ok _ m => m
  | .error _ m => m

/-- Shows a prompt before a line is read. -/
def ask (m : Monitor) (prompt : String) : Monitor :=
  { m with terminal := m.terminal.ask prompt }

/-- Reads and runs commands under a fixed prompt. -/
def serve (prompt : String) : List (Option String) → Monitor → Visit
  | [], m => ⟨.waiting, [], m.ask prompt⟩
  | none :: script, m => serve prompt script (m.ask prompt)
  | some text :: script, m =>
    match (m.ask prompt).runCommand text with
    | .ok .resume m => ⟨.resumed, script, m⟩
    | .ok .proceed m => serve prompt script m
    | .error f m => ⟨.faulted f, script, m⟩

/-- A visit to the monitor: the greeting, then commands until one resumes. -/
def run (script : List (Option String)) (m : Monitor) : Visit :=
  serve m.prompt script m.greet

end Monitor

end DebugMonitor
