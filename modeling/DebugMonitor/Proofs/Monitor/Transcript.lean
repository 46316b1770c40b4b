import DebugMonitor.Proofs.Command.Refusal
import DebugMonitor.Proofs.Monitor.Composition
import DebugMonitor.Proofs.Monitor.Resuming
import DebugMonitor.Proofs.Monitor.Unlimited

/-!
# Transcripts

A command depends on its terminal in one way only: a write that fails ends it. A `Transcript` is an
account of a run that leaves the terminal open. It has the text the run shows, how the run ends if
the terminal takes all of that text, and the state it stops in if the terminal takes only so many of
its characters. `Transcript.on` is then the run on any given terminal.

An action `Streams` when from every state it has a transcript. The operations do, and transcripts
are joined by `Streams.bind`: a terminal takes the texts of both parts exactly if it takes the first
and what is left of it takes the second. `execute_streams` says so for every request but the two that
resume, and a transcript has no diagnostic, so such a request ends early only by a fault or at a
terminal that fails.
-/

namespace DebugMonitor

open Command

namespace Terminal

/-- The number of characters that the limit still lets through. -/
def room (t : Terminal) : Nat :=
  match t.limit with
  | some limit => limit.left
  | none => 0

variable {t : Terminal} {a b : String}

@[simp] theorem write_empty (t : Terminal) : t.write "" = (true, t) := by
  obtain ⟨shown, prompts, limit, later⟩ := t
  cases limit <;> simp [write]

/-- A write that fails finds too little room. -/
theorem room_lt_of_write (h : (t.write a).1 = false) : t.room < a.length := by
  obtain ⟨shown, prompts, limit, later⟩ := t
  cases limit with
  | none => cases h
  | some limit =>
    by_cases fits : a.length ≤ limit.left
    · simp [write, fits] at h
    · exact Nat.not_le.1 fits

/-- A write that succeeds before one that fails has used up part of the room. -/
theorem room_write (first : (t.write a).1 = true) (second : ((t.write a).2.write b).1 = false) :
    a.length ≤ t.room ∧ (t.write a).2.room = t.room - a.length := by
  obtain ⟨shown, prompts, limit, later⟩ := t
  cases limit with
  | none =>
    rw [write_of_limit_eq_none rfl, write_of_limit_eq_none rfl] at second
    cases second
  | some limit =>
    by_cases fits : a.length ≤ limit.left
    · simp only [write, if_pos fits]
      exact ⟨fits, rfl⟩
    · simp [write, if_neg fits] at first

end Terminal

/-- The monitor at another terminal. -/
def Monitor.withTerminal (m : Monitor) (terminal : Terminal) : Monitor :=
  { m with terminal }

/-- An account of a run that leaves the terminal open. -/
structure Transcript (α : Type) where
  text : String
  /-- How the run ends on a terminal that takes all of the text. -/
  ending : EStateM.Result Fault Monitor α
  /-- The state in which it stops on a terminal that takes only so many characters. -/
  cut : Nat → Monitor

namespace Transcript

variable {α : Type}

/-- An ending on a terminal. -/
def settle {ε : Type} (terminal : Terminal) :
    EStateM.Result ε Monitor α → EStateM.Result ε Monitor α
  | .ok x m => .ok x (m.withTerminal terminal)
  | .error e m => .error e (m.withTerminal terminal)

/-- An ending as the result of an action. -/
def raise : EStateM.Result Fault Monitor α → EStateM.Result Halt Monitor α
  | .ok x m => .ok x m
  | .error f m => .error (.fault f) m

/-- The run of an action on a terminal. -/
def on (r : Transcript α) (t : Terminal) : EStateM.Result Halt Monitor α :=
  match t.write r.text with
  | (true, terminal) => settle terminal (raise r.ending)
  | (false, terminal) =>
    .error (.diagnostic .consoleFailed) ((r.cut t.room).withTerminal terminal)

/-- The run of a line on a terminal: where the terminal fails, `closing` is tried and the session
goes on. -/
def answer (r : Transcript Flow) (closing : String) (t : Terminal) :
    EStateM.Result Fault Monitor Flow :=
  match t.write r.text with
  | (true, terminal) => settle terminal r.ending
  | (false, terminal) => .ok .proceed ((r.cut t.room).withTerminal (terminal.write closing).2)

/-- A line that does not fault comes to its end, or the terminal cuts it off. -/
theorem answer_eq_ok_iff {r : Transcript Flow} {closing : String} {t : Terminal} {flow : Flow}
    {m' : Monitor} : r.answer closing t = .ok flow m' ↔
      ((t.write r.text).1 = true ∧
        ∃ m, r.ending = .ok flow m ∧ m' = m.withTerminal (t.write r.text).2) ∨
      ((t.write r.text).1 = false ∧ flow = .proceed ∧
        m' = (r.cut t.room).withTerminal ((t.write r.text).2.write closing).2) := by
  rw [answer]
  cases t.write r.text with
  | mk taken terminal =>
    cases taken with
    | true =>
      cases r.ending with
      | ok flow' m => simp [settle, and_assoc, eq_comm]
      | error f m => simp [settle]
    | false => simp [eq_comm]

end Transcript

namespace Action

variable {α β : Type}

/-- From every state the action has a transcript. -/
def Streams (a : Action α) : Prop :=
  ∀ m : Monitor, ∃ r : Transcript α, ∀ t, a (m.withTerminal t) = r.on t

/-- What shows nothing and does not look at the terminal has a transcript without text. -/
theorem streams_of_quiet {a : Action α}
    (quiet : ∀ m : Monitor, ∃ ending, ∀ t,
      a (m.withTerminal t) = Transcript.settle t (Transcript.raise ending)) :
    Streams a := by
  intro m
  obtain ⟨ending, h⟩ := quiet m
  refine ⟨⟨"", ending, fun _ => m⟩, ?_⟩
  intro t
  rw [Transcript.on, Terminal.write_empty]
  exact h t

theorem streams_pure (x : α) : Streams (pure x) :=
  streams_of_quiet fun m => ⟨.ok x m, fun _ => rfl⟩

theorem streams_fault (f : Fault) : Streams (throw (.fault f) : Action α) :=
  streams_of_quiet fun m => ⟨.error f m, fun _ => rfl⟩

theorem streams_note (level : Log.Level) (text : String) : Streams (note level text) :=
  streams_of_quiet fun m => ⟨.ok () (m.note ⟨level, text⟩), fun _ => rfl⟩

theorem streams_perform (e : Effect) : Streams (perform e) :=
  streams_of_quiet fun m => ⟨.ok () (m.record e), fun _ => rfl⟩

theorem streams_store (leaf : Paging.Leaf) : Streams (store leaf) :=
  streams_of_quiet fun m =>
    ⟨.ok () { m with target := { m.target with space := m.target.space.store leaf } }, fun _ => rfl⟩

/-- Printing changes the terminal and nothing else, and may fail. -/
theorem exists_print_eq (text : String) (m : Monitor) :
    ∃ t, print text m = .ok () (m.withTerminal t) ∨
      print text m = .error (.diagnostic .consoleFailed) (m.withTerminal t) := by
  rw [print]
  cases m.terminal.write text with
  | mk taken terminal =>
    refine ⟨terminal, ?_⟩
    cases taken with
    | true => exact .inl rfl
    | false => exact .inr rfl

theorem run_print_of_taken {text : String} {t t' : Terminal} (taken : t.write text = (true, t'))
    (m : Monitor) : print text (m.withTerminal t) = .ok () (m.withTerminal t') := by
  have write : (m.withTerminal t).terminal.write text = (true, t') := taken
  rw [print, write]
  rfl

theorem run_print_of_failed {text : String} {t t' : Terminal} (failed : t.write text = (false, t'))
    (m : Monitor) : print text (m.withTerminal t) =
      .error (.diagnostic .consoleFailed) (m.withTerminal t') := by
  have write : (m.withTerminal t).terminal.write text = (false, t') := failed
  rw [print, write]
  rfl

theorem streams_print (text : String) : Streams (print text) := by
  intro m
  refine ⟨⟨text, .ok () m, fun _ => m⟩, ?_⟩
  intro t
  rw [Transcript.on]
  cases hwrite : t.write text with
  | mk taken terminal =>
    cases taken with
    | true => exact run_print_of_taken hwrite m
    | false => exact run_print_of_failed hwrite m

theorem Streams.bind {a : Action α} {f : α → Action β} (first : Streams a)
    (second : ∀ x, Streams (f x)) : Streams (a >>= f) := by
  intro m
  obtain ⟨⟨text₁, ending₁, cut₁⟩, h₁⟩ := first m
  cases ending₁ with
  | error fault m₁ =>
    refine ⟨⟨text₁, .error fault m₁, cut₁⟩, ?_⟩
    intro t
    have run := h₁ t
    rw [Transcript.on] at run ⊢
    dsimp only at run ⊢
    cases hwrite : t.write text₁ with
    | mk taken terminal =>
      rw [hwrite] at run
      cases taken <;> exact run_bind_of_error f run
  | ok x m₁ =>
    obtain ⟨⟨text₂, ending₂, cut₂⟩, h₂⟩ := second x m₁
    -- The first text takes up the beginning of the room, the second what is left of it.
    refine ⟨⟨text₁ ++ text₂, ending₂,
      fun n => if n < text₁.length then cut₁ n else cut₂ (n - text₁.length)⟩, ?_⟩
    intro t
    have run := h₁ t
    rw [Transcript.on] at run ⊢
    dsimp only at run ⊢
    rw [Terminal.write_append]
    cases hwrite : t.write text₁ with
    | mk taken terminal =>
      rw [hwrite] at run
      cases taken with
      | false =>
        have short : t.room < text₁.length := Terminal.room_lt_of_write (by rw [hwrite])
        rw [run_bind_of_error f run, if_pos short]
        rfl
      | true =>
        rw [run_bind f run, if_pos rfl, h₂ terminal, Transcript.on]
        dsimp only
        cases hrest : terminal.write text₂ with
        | mk taken' terminal' =>
          cases taken' with
          | true => rfl
          | false =>
            have rooms := Terminal.room_write (t := t) (a := text₁) (b := text₂) (by rw [hwrite])
              (by rw [hwrite, hrest])
            rw [hwrite] at rooms
            rw [if_neg (Nat.not_lt.2 rooms.1), rooms.2]

/-- Looking at the monitor, but not at its terminal, does not disturb a transcript. -/
theorem streams_get_bind {f : Monitor → Action β} (blind : ∀ m t, f (m.withTerminal t) = f m)
    (streams : ∀ m, Streams (f m)) : Streams (get >>= f) := by
  intro m
  obtain ⟨r, h⟩ := streams m m
  refine ⟨r, ?_⟩
  intro t
  change f (m.withTerminal t) (m.withTerminal t) = r.on t
  rw [blind, h]

/-- What is put together from the operations has a transcript, since the operations have one. -/
theorem Composed.streams {a : Action α} (h : Composed a) : Streams a := by
  induction h with
  | pure x => exact streams_pure x
  | fault f => exact streams_fault f
  | print text => exact streams_print text
  | note level text => exact streams_note level text
  | perform e => exact streams_perform e
  | store leaf => exact streams_store leaf
  | look blind _ each => exact streams_get_bind (fun m t => blind m t m.journal) each
  | bind _ _ first second => exact first.bind second

/-- Every request has a transcript from every state, unless it resumes the context. -/
theorem execute_streams (request : Request) (stays : ∀ on, request ≠ .resume on) :
    Streams (execute request) :=
  (execute_composed request stays).streams

end Action

/-! ### Lines -/

namespace Monitor

/-- What is tried after a terminal failed: a command says so, a diagnostic is followed by nothing. -/
def closing (refused : Bool) : String :=
  if refused then "" else Diagnostic.consoleFailed.message ++ "\n"

/-- The transcript of a line that is refused: the diagnostic and nothing else. -/
def refusal (m : Monitor) (d : Diagnostic) : Transcript Flow :=
  let m := match d.notice? with
    | some n => m.note n
    | none => m
  ⟨d.message ++ "\n", .ok .proceed m, fun _ => m⟩

theorem answer_refusal (m : Monitor) (d : Diagnostic) (t : Terminal) :
    (m.refusal d).answer (closing true) t = .ok .proceed ((m.withTerminal t).report d) := by
  rw [Transcript.answer, refusal, report, closing, if_pos rfl]
  cases d.notice? with
  | none =>
    dsimp only
    change _ = EStateM.Result.ok Flow.proceed (m.withTerminal (t.write (d.message ++ "\n")).2)
    cases t.write (d.message ++ "\n") with
    | mk taken terminal => cases taken <;> simp [Transcript.settle]
  | some n =>
    dsimp only
    change _ = EStateM.Result.ok Flow.proceed
      ((m.note n).withTerminal (t.write (d.message ++ "\n")).2)
    cases t.write (d.message ++ "\n") with
    | mk taken terminal => cases taken <;> simp [Transcript.settle]

/-- The transcript is that of running a line from `m`. -/
structure Answers (m : Monitor) (text : String) (r : Transcript Flow) : Prop where
  run : ∀ t, (m.withTerminal t).runCommand text =
    r.answer (closing (refusal? m.context.isSome (Line.wordsOf text)).isSome) t
  refused : ∀ message, refusal? m.context.isSome (Line.wordsOf text) = some message →
    r.text = message ++ "\n"
  resumes : ∀ m', r.ending = .ok .resume m' → r.text = ""

variable {m noted : Monitor} {text : String}

/-- A line that is cut short by a diagnostic before it shows anything. -/
private theorem answers_of_diagnostic {d : Diagnostic}
    (named : refusal? m.context.isSome (Line.wordsOf text) = some d.message)
    (h : ∀ t, Action.interpret text (m.withTerminal t) =
      .error (.diagnostic d) (noted.withTerminal t)) : m.Answers text (noted.refusal d) where
  run t := by
    rw [named, Option.isSome_some, answer_refusal, runCommand, h]
  refused message same := by
    rw [named] at same
    cases same
    rfl
  resumes m' resumed := by cases resumed

/-- A line that is carried out. -/
private theorem answers_of_on {r : Transcript Flow}
    (named : refusal? m.context.isSome (Line.wordsOf text) = none)
    (h : ∀ t, Action.interpret text (m.withTerminal t) = r.on t)
    (resumes : ∀ m', r.ending = .ok .resume m' → r.text = "") : m.Answers text r where
  run t := by
    rw [named, Option.isSome_none, runCommand, h, Transcript.on, Transcript.answer]
    cases t.write r.text with
    | mk taken terminal =>
      cases taken with
      | false => rfl
      | true =>
        dsimp only
        cases r.ending <;> rfl
  refused message same := by
    rw [named] at same
    cases same
  resumes := resumes

/-- A line that shows nothing. -/
private theorem answers_of_ok {flow : Flow}
    (named : refusal? m.context.isSome (Line.wordsOf text) = none)
    (h : ∀ t, Action.interpret text (m.withTerminal t) = .ok flow (noted.withTerminal t)) :
    m.Answers text ⟨"", .ok flow noted, fun _ => noted⟩ := by
  apply answers_of_on named
  · intro t
    rw [h, Transcript.on, Terminal.write_empty]
    rfl
  · intro m' _
    rfl

/-- The transcript of a request that does not resume. -/
private theorem ending_ne_resume {request : Request} (stays : ∀ on, request ≠ .resume on)
    {r : Transcript Flow} (h : ∀ t, Action.execute request (m.withTerminal t) = r.on t)
    (m' : Monitor) : r.ending ≠ .ok .resume m' := by
  intro resumed
  have run := h {}
  rw [Transcript.on, Terminal.write_of_limit_eq_none rfl, resumed] at run
  cases Action.eq_proceed_of_execute stays run

/-- What a line notes before its request is carried out does not depend on the terminal. -/
private theorem exists_interpret_withTerminal_eq (m : Monitor) (text : String) :
    ∃ noted : Monitor, noted.context = m.context ∧
      ∀ t, Action.interpret text (m.withTerminal t) =
        match Request.ofText text with
        | .error d => .error (.diagnostic d) (noted.withTerminal t)
        | .ok none => .ok .proceed (noted.withTerminal t)
        | .ok (some request) => Action.execute request (noted.withTerminal t) := by
  obtain ⟨notes, interpreted⟩ := Action.exists_notes_interpret_eq text
  exact ⟨{ m with journal := m.journal ++ notes }, rfl, fun t => interpreted (m.withTerminal t)⟩

/-- Every line has a transcript from every state. -/
theorem exists_answers (m : Monitor) (text : String) : ∃ r, m.Answers text r := by
  obtain ⟨noted, context_noted, interpreted⟩ := exists_interpret_withTerminal_eq m text
  have reads := Request.ofText_reads m.context.isSome text
  generalize named : refusal? m.context.isSome (Line.wordsOf text) = refusal at reads
  generalize Request.ofText text = read at reads interpreted
  cases reads with
  | refused d => exact ⟨_, answers_of_diagnostic named interpreted⟩
  | noContext on missing =>
    have none : noted.context = none :=
      context_noted.trans (Option.isNone_iff_eq_none.1 (by simpa using missing))
    refine ⟨noted.refusal .noContext, answers_of_diagnostic named fun t => ?_⟩
    exact (interpreted t).trans (execute_resume_of_none on none)
  | blank => exact ⟨_, answers_of_ok named interpreted⟩
  | accepted request context =>
    by_cases resumes : ∃ on, request = .resume on
    · obtain ⟨on, rfl⟩ := resumes
      obtain ⟨c, present⟩ := Option.isSome_iff_exists.1 (context on rfl)
      obtain ⟨notice, resumed⟩ := Action.exists_notice_execute_resume c on
      let stepped : Monitor := { noted with context := some (c.setSingleStep on) }.note notice
      refine ⟨⟨"", .ok .resume stepped, fun _ => stepped⟩, answers_of_ok named fun t => ?_⟩
      exact (interpreted t).trans (resumed (noted.withTerminal t) (context_noted.trans present))
    · have stays : ∀ on, request ≠ .resume on := fun on same => resumes ⟨on, same⟩
      obtain ⟨r, h⟩ := Action.execute_streams request stays noted
      refine ⟨r, answers_of_on named (fun t => (interpreted t).trans (h t)) ?_⟩
      intro m' resumed
      exact absurd resumed (ending_ne_resume stays h m')

/-- A line that goes on to the next one on a terminal that takes everything does so on every
terminal. -/
theorem exists_runCommand_eq_proceed {m' : Monitor}
    (run : (m.withTerminal {}).runCommand text = .ok .proceed m') :
    ∃ m₁, m.runCommand text = .ok .proceed m₁ := by
  obtain ⟨r, answers⟩ := m.exists_answers text
  rw [answers.run, Transcript.answer_eq_ok_iff, Terminal.write_of_limit_eq_none rfl] at run
  obtain ⟨m₀, ending⟩ : ∃ m₀, r.ending = .ok .proceed m₀ := by
    rcases run with ⟨-, m₀, ended, -⟩ | ⟨failed, -⟩
    · exact ⟨m₀, ended⟩
    · cases failed
  have here : m.runCommand text = _ := answers.run m.terminal
  rw [here, Transcript.answer, ending]
  cases m.terminal.write r.text with
  | mk taken terminal => cases taken <;> exact ⟨_, rfl⟩

/-- A line that comes to its end on a terminal that takes everything comes to the same end on every
terminal that takes what it shows. -/
theorem runCommand_eq_of_taken {m' : Monitor} {flow : Flow} {t : Terminal}
    (run : (m.withTerminal {}).runCommand text = .ok flow m')
    (taken : m.terminal.write m'.terminal.shown = (true, t)) :
    m.runCommand text = .ok flow (m'.withTerminal t) := by
  obtain ⟨r, answers⟩ := m.exists_answers text
  rw [answers.run, Transcript.answer_eq_ok_iff, Terminal.write_of_limit_eq_none rfl] at run
  obtain ⟨m₀, ending, same⟩ : ∃ m₀, r.ending = .ok flow m₀ ∧
      m' = m₀.withTerminal { shown := "" ++ r.text } := by
    rcases run with ⟨-, ended⟩ | ⟨failed, -⟩
    · exact ended
    · cases failed
  have shown : m'.terminal.shown = r.text := by
    rw [same]
    exact String.empty_append
  have here : m.runCommand text = _ := answers.run m.terminal
  rw [here, Transcript.answer, ← shown, taken, ending, same]
  rfl

/-- A request that does nothing but record and print on a terminal that takes everything does the same
on every terminal that takes what it shows. -/
theorem exists_runCommand_eq_of_taken {request : Request} {effects : List Effect} {shown : String}
    {t : Terminal} (asks : Asks text request)
    (run : ∀ journal, ∃ journal', Action.execute request { m.withTerminal {} with journal } =
      .ok .proceed
        { ((m.withTerminal {}).recordAll effects).say shown with journal := journal' })
    (taken : m.terminal.write shown = (true, t)) :
    ∃ journal, m.runCommand text =
      .ok .proceed { (m.recordAll effects).withTerminal t with journal } := by
  obtain ⟨journal, ran⟩ := exists_runCommand_eq_of_execute asks run
  have output : (((m.withTerminal {}).recordAll effects).say shown).terminal.shown = shown :=
    String.empty_append
  exact ⟨journal, runCommand_eq_of_taken ran (output.symm ▸ taken)⟩

end Monitor

end DebugMonitor
