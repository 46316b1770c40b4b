import DebugMonitor.Proofs.Monitor.Transcript

/-!
# Serving a script

`runLines` runs lines one after another, up to the first that resumes, and shows no prompt. A visit
to the monitor is a greeting and then such a run of the lines in its script: `run_eq_runLines`. To
this it adds one prompt for each item that it reads, also for a read that failed, and that is all. A
line does not look at the prompts (`runCommand_ask`), so a visit may as well show them at its end.
-/

namespace DebugMonitor

open Command

namespace Terminal

variable (t : Terminal) (prompt text : String)

@[simp] theorem write_ask :
    (t.ask prompt).write text = ((t.write text).1, (t.write text).2.ask prompt) := by
  obtain ⟨shown, prompts, limit, later⟩ := t
  cases limit with
  | none => rfl
  | some limit =>
    by_cases fits : text.length ≤ limit.left
    · simp [write, ask, fits]
    · cases once : limit.once <;> simp [write, ask, fits, once]

@[simp] theorem prompts_write : (t.write text).2.prompts = t.prompts := by
  obtain ⟨shown, prompts, limit, later⟩ := t
  cases limit with
  | none => rfl
  | some limit =>
    by_cases fits : text.length ≤ limit.left
    · simp [write, fits]
    · cases once : limit.once <;> simp [write, fits, once]

end Terminal

namespace Transcript

variable {r : Transcript Flow} {closing : String} {t : Terminal} {flow : Flow} {m' : Monitor}

/-- A prompt that is shown before a line may be shown after it. -/
theorem answer_ask (prompt : String) (h : r.answer closing t = .ok flow m') :
    r.answer closing (t.ask prompt) = .ok flow (m'.ask prompt) := by
  rw [answer_eq_ok_iff] at h ⊢
  simp only [Terminal.write_ask]
  rcases h with ⟨taken, m, ending, rfl⟩ | ⟨cut, rfl, rfl⟩
  · exact .inl ⟨taken, m, ending, rfl⟩
  · exact .inr ⟨cut, rfl, rfl⟩

theorem prompts_of_answer (h : r.answer closing t = .ok flow m') :
    m'.terminal.prompts = t.prompts := by
  rcases answer_eq_ok_iff.1 h with ⟨-, m, -, rfl⟩ | ⟨-, -, rfl⟩
  · exact t.prompts_write _
  · exact ((t.write _).2.prompts_write _).trans (t.prompts_write _)

end Transcript

namespace Monitor

/-- Runs lines one after another, up to the first that resumes. -/
def runLines : List String → EStateM Fault Monitor Flow
  | [] => pure .proceed
  | text :: lines => do
    match ← runCommand text with
    | .proceed => runLines lines
    | .resume => return .resume

/-- Shows a prompt a number of times. -/
def askTimes (m : Monitor) (prompt : String) (n : Nat) : Monitor :=
  { m with terminal := { m.terminal with
      prompts := m.terminal.prompts ++ Array.replicate n prompt } }

/-- The prompt of a visit, by the trap flag and the environment that it finds. -/
def promptFor (stepping : Bool) (environment : Option UInt32) : String :=
  match stepping, environment with
  | true, some env => "[" ++ Text.hexPadded 8 env.toUInt64 ++ "] step> "
  | true, none => "[--------] step> "
  | false, _ => "K> "

variable {m m' m₁ : Monitor} {text : String} {lines : List String} {flow : Flow}
  {script earlier : List (Option String)}

/-! ### Lines and prompts -/

theorem runCommand_ask (prompt : String) (run : m.runCommand text = .ok flow m') :
    (m.ask prompt).runCommand text = .ok flow (m'.ask prompt) := by
  obtain ⟨r, answers⟩ := m.exists_answers text
  exact (answers.run _).trans (Transcript.answer_ask prompt ((answers.run _).symm.trans run))

theorem prompts_runCommand (run : m.runCommand text = .ok flow m') :
    m'.terminal.prompts = m.terminal.prompts := by
  obtain ⟨r, answers⟩ := m.exists_answers text
  exact Transcript.prompts_of_answer ((answers.run _).symm.trans run)

/-- The first line resumes, or it does not and the other lines are run where it ends. -/
theorem runLines_cons_eq_ok_iff : m.runLines (text :: lines) = .ok flow m' ↔
    (flow = .resume ∧ m.runCommand text = .ok .resume m') ∨
      ∃ m₁, m.runCommand text = .ok .proceed m₁ ∧ m₁.runLines lines = .ok flow m' := by
  rw [runLines]
  simp only [bind, EStateM.bind]
  cases m.runCommand text with
  | error f m₁ => simp
  | ok flow₁ m₁ =>
    cases flow₁ with
    | proceed => simp
    | resume => simp [pure, EStateM.pure, eq_comm]

theorem runLines_ask (prompt : String) (run : m.runLines lines = .ok flow m') :
    (m.ask prompt).runLines lines = .ok flow (m'.ask prompt) := by
  induction lines generalizing m with
  | nil =>
    cases run
    rfl
  | cons text lines ih =>
    rw [runLines_cons_eq_ok_iff] at run ⊢
    rcases run with ⟨rfl, resumed⟩ | ⟨m₁, first, others⟩
    · exact .inl ⟨rfl, runCommand_ask prompt resumed⟩
    · exact .inr ⟨m₁.ask prompt, runCommand_ask prompt first, ih others⟩

theorem prompts_runLines (run : m.runLines lines = .ok flow m') :
    m'.terminal.prompts = m.terminal.prompts := by
  induction lines generalizing m with
  | nil =>
    cases run
    rfl
  | cons text lines ih =>
    rcases runLines_cons_eq_ok_iff.1 run with ⟨-, resumed⟩ | ⟨m₁, first, others⟩
    · exact prompts_runCommand resumed
    · exact (ih others).trans (prompts_runCommand first)

theorem ask_askTimes (m : Monitor) (prompt : String) (n : Nat) :
    (m.ask prompt).askTimes prompt n = m.askTimes prompt (n + 1) := by
  have prompts (shown : Array String) :
      shown.push prompt ++ Array.replicate n prompt = shown ++ Array.replicate (n + 1) prompt := by
    apply Array.ext'
    simp [List.replicate_succ]
  rw [askTimes, askTimes, ← prompts]
  rfl

theorem askTimes_ask (m : Monitor) (prompt : String) (n : Nat) :
    (m.askTimes prompt n).ask prompt = m.askTimes prompt (n + 1) := by
  rw [askTimes, askTimes, Array.replicate_succ, Array.append_push]
  rfl

/-- A line on a monitor that has prompted before. -/
theorem runCommand_askTimes (prompt : String) (n : Nat) (run : m.runCommand text = .ok flow m') :
    (m.askTimes prompt n).runCommand text = .ok flow (m'.askTimes prompt n) := by
  induction n generalizing m m' with
  | zero => simpa [askTimes] using run
  | succ n ih =>
    rw [← ask_askTimes, ← ask_askTimes]
    exact ih (runCommand_ask prompt run)

/-! ### Serving -/

/-- What does not resume is served one item after another, and only shows its prompts besides. -/
theorem serve_append (prompt : String) (rest : List (Option String))
    (run : m.runLines (earlier.filterMap id) = .ok .proceed m₁) :
    serve prompt (earlier ++ rest) m = serve prompt rest (m₁.askTimes prompt earlier.length) := by
  induction earlier generalizing m m₁ with
  | nil =>
    cases run
    simp [askTimes]
  | cons item earlier ih =>
    rw [List.cons_append, List.length_cons, ← ask_askTimes]
    cases item with
    | none => exact ih (runLines_ask prompt run)
    | some text =>
      rcases runLines_cons_eq_ok_iff.1 run with ⟨resumed, -⟩ | ⟨m₂, first, others⟩
      · cases resumed
      · rw [serve, runCommand_ask prompt first]
        exact ih (runLines_ask prompt others)

/-- The line that resumes is the first one to do so. -/
theorem exists_of_runLines_eq_resume
    (run : m.runLines (script.filterMap id) = .ok .resume m') :
    ∃ earlier text rest m₁, script = earlier ++ some text :: rest ∧
      m.runLines (earlier.filterMap id) = .ok .proceed m₁ ∧
      m₁.runCommand text = .ok .resume m' := by
  induction script generalizing m with
  | nil => cases run
  | cons item script ih =>
    cases item with
    | none =>
      obtain ⟨earlier, text, rest, m₁, rfl, before, resumed⟩ := ih run
      exact ⟨none :: earlier, text, rest, m₁, rfl, before, resumed⟩
    | some line =>
      rcases runLines_cons_eq_ok_iff.1 run with ⟨-, resumed⟩ | ⟨m₂, first, others⟩
      · exact ⟨[], line, script, m, rfl, rfl, resumed⟩
      · obtain ⟨earlier, text, rest, m₁, rfl, before, resumed⟩ := ih others
        refine ⟨some line :: earlier, text, rest, m₁, rfl, ?_, resumed⟩
        exact runLines_cons_eq_ok_iff.2 (.inr ⟨m₂, first, before⟩)

/-- Serving a script reads a first part of it, and the context becomes what the lines in that part
make of it. -/
theorem exists_read_serve (prompt : String) (script : List (Option String)) (m : Monitor) :
    ∃ read, script = read ++ (serve prompt script m).unread ∧
      (serve prompt script m).monitor.context =
        m.context.map fun c => (read.filterMap id).foldl Cpu.Context.resumeBy c := by
  induction script generalizing m with
  | nil => exact ⟨[], rfl, Option.map_id'.symm⟩
  | cons item script ih =>
    cases item with
    | none =>
      obtain ⟨read, split, context⟩ := ih (m.ask prompt)
      exact ⟨none :: read, congrArg (none :: ·) split, context⟩
    | some text =>
      have ran := context_runCommand text (m.ask prompt)
      rw [serve]
      cases h : (m.ask prompt).runCommand text with
      | error f m' =>
        rw [after_of_error h] at ran
        exact ⟨[some text], rfl, ran⟩
      | ok flow m' =>
        rw [after_of_ok h] at ran
        cases flow with
        | resume => exact ⟨[some text], rfl, ran⟩
        | proceed =>
          obtain ⟨read, split, context⟩ := ih m'
          refine ⟨some text :: read, congrArg (some text :: ·) split, context.trans ?_⟩
          rw [ran, Option.map_map]
          rfl

/-- Without a context no script makes a visit resume. -/
theorem exit_serve_ne_resumed (prompt : String) (script : List (Option String))
    (absent : m.context = none) : (serve prompt script m).exit ≠ .resumed := by
  induction script generalizing m with
  | nil => exact Exit.noConfusion
  | cons item script ih =>
    cases item with
    | none => exact ih (m := m.ask prompt) absent
    | some text =>
      have asked : (m.ask prompt).context = none := absent
      have stays : ¬ ∃ m', (m.ask prompt).runCommand text = .ok .resume m' := by
        rw [exists_runCommand_eq_resume_iff, asked]
        exact fun h => Bool.false_ne_true h.1
      have context := context_runCommand text (m.ask prompt)
      rw [asked] at context
      rw [serve]
      cases h : (m.ask prompt).runCommand text with
      | error f m' => exact Exit.noConfusion
      | ok flow m' =>
        rw [after_of_ok h] at context
        cases flow with
        | proceed => exact ih context
        | resume => exact absurd ⟨m', h⟩ stays

theorem greeting_streams : Action.Streams greeting := by
  have enter : Action.Streams (modify fun m => { m with greeted := true }) :=
    Action.streams_of_quiet fun m => ⟨.ok () { m with greeted := true }, fun _ => rfl⟩
  apply Action.streams_get_bind fun _ _ => rfl
  intro now
  apply (Action.streams_print _).bind
  intro _
  apply enter.bind
  intro _
  apply Action.streams_get_bind fun _ _ => rfl
  intro now
  cases now.context with
  | none => exact Action.streams_pure _
  | some context =>
    dsimp only
    split
    · exact Action.streams_print _
    · exact Action.streams_pure _

@[simp] theorem context_greet (m : Monitor) : m.greet.context = m.context := by
  have greeted : Leads (VisitAllows []) m m.greet := greet_leads m
  refine greeted.keeps (f := context) ?_
  intro m move allowed
  cases move with
  | context c =>
    obtain ⟨text, member, -⟩ := allowed.exists_request id id
    cases member
  | write _ | ask _ | note _ | perform _ | store _ | greeted => rfl

@[simp] theorem prompts_greet (m : Monitor) : m.greet.terminal.prompts = m.terminal.prompts := by
  obtain ⟨r, h⟩ := greeting_streams m
  have run : greeting m = r.on m.terminal := h m.terminal
  have kept := m.terminal.prompts_write r.text
  rw [greet, run, Transcript.on]
  cases hwrite : m.terminal.write r.text with
  | mk taken terminal =>
    rw [hwrite] at kept
    cases taken with
    | false => exact kept
    | true => cases r.ending <;> exact kept

theorem prompt_eq_promptFor (m : Monitor) :
    m.prompt = promptFor (m.context.any fun c => Word.testBit c.flags.bits 8)
      m.target.environment := by
  have stepping : m.isStepping = m.context.any fun c => Word.testBit c.flags.bits 8 := rfl
  rw [prompt, ← stepping]
  cases m.isStepping <;> cases m.target.environment <;> rfl

theorem run_of_runLines_eq_proceed
    (run : m.greet.runLines (script.filterMap id) = .ok .proceed m') :
    m.run script = ⟨.waiting, [], (m'.askTimes m.prompt script.length).ask m.prompt⟩ := by
  have served := serve_append m.prompt [] run
  rw [List.append_nil] at served
  exact served

theorem run_of_runLines_eq_resume
    (run : m.greet.runLines (script.filterMap id) = .ok .resume m') :
    ∃ earlier text rest m₁, script = earlier ++ some text :: rest ∧
      m.greet.runLines (earlier.filterMap id) = .ok .proceed m₁ ∧
      m₁.runCommand text = .ok .resume m' ∧
      m.run script = ⟨.resumed, rest, m'.askTimes m.prompt (earlier.length + 1)⟩ := by
  obtain ⟨earlier, text, rest, m₁, split, before, resumed⟩ := exists_of_runLines_eq_resume run
  refine ⟨earlier, text, rest, m₁, split, before, resumed, ?_⟩
  rw [Monitor.run, split, serve_append m.prompt (some text :: rest) before, serve, askTimes_ask,
    runCommand_askTimes m.prompt (earlier.length + 1) resumed]

/-- A visit is the greeting and then its lines, run up to the first that resumes. It prompts once
for each item that it reads, whether that is a line or a read that failed, always in the same way;
if it is not resumed it prompts once more and waits. Without a context that is its only end. -/
theorem run_eq_runLines (run : m.greet.runLines (script.filterMap id) = .ok flow m') :
    (match flow with
      | .proceed =>
        m.run script = ⟨.waiting, [], (m'.askTimes m.prompt script.length).ask m.prompt⟩
      | .resume =>
        ∃ earlier text rest m₁, script = earlier ++ some text :: rest ∧
          m.greet.runLines (earlier.filterMap id) = .ok .proceed m₁ ∧
          m₁.runCommand text = .ok .resume m' ∧
          m.run script = ⟨.resumed, rest, m'.askTimes m.prompt (earlier.length + 1)⟩) ∧
    m'.terminal.prompts = m.terminal.prompts ∧
    m.prompt = promptFor (m.context.any fun c => Word.testBit c.flags.bits 8)
      m.target.environment ∧
    (m.context = none → (m.run script).exit = .waiting) := by
  have prompts := (prompts_runLines run).trans (prompts_greet m)
  cases flow with
  | proceed =>
    have visit := run_of_runLines_eq_proceed run
    exact ⟨visit, prompts, prompt_eq_promptFor m, fun _ => congrArg Visit.exit visit⟩
  | resume =>
    have visit := run_of_runLines_eq_resume run
    refine ⟨visit, prompts, prompt_eq_promptFor m, ?_⟩
    intro absent
    obtain ⟨_, _, _, _, _, _, _, resumed⟩ := visit
    have greeted : m.greet.context = none := (context_greet m).trans absent
    exact absurd (congrArg Visit.exit resumed) (exit_serve_ne_resumed m.prompt script greeted)

/-- A monitor that is entered after a single step, where there are no environments. -/
def afterStep : Monitor :=
  { context := some (({} : Cpu.Context).setSingleStep true), options := { showContext := false } }

/-- A failed read and a step; what follows the step is not read. -/
theorem run_eq_runLines_afterStep :
    let visit := afterStep.run [none, some "s", some "c"]
    visit.exit = .resumed ∧ visit.unread = [some "c"] ∧
      visit.monitor.terminal.prompts = #["[--------] step> ", "[--------] step> "] := by
  have run : afterStep.greet.runLines ([none, some "s", some "c"].filterMap id) =
      .ok .resume (afterStep.greet.after (runLines ["s", "c"])) := rfl
  obtain ⟨⟨earlier, text, rest, m₁, split, before, -, visit⟩, prompts, prompt, -⟩ :=
    run_eq_runLines run
  rcases earlier with _ | ⟨first, _ | ⟨second, earlier⟩⟩
  · cases split
  · cases split
    rw [visit, prompt]
    refine ⟨rfl, rfl, ?_⟩
    rw [askTimes, prompts]
    rfl
  · -- The step would have to be among the lines that do not resume.
    simp only [List.cons_append, List.cons.injEq] at split
    obtain ⟨rfl, rfl, -⟩ := split
    rcases runLines_cons_eq_ok_iff.1 before with ⟨resumed, -⟩ | ⟨_, stepped, -⟩
    · cases resumed
    · cases stepped

end Monitor

end DebugMonitor
