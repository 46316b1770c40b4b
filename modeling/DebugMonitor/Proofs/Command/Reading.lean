import DebugMonitor.Monitor.Execute
import DebugMonitor.Proofs.Command.Splitting

/-!
# Reading a line

`Request.ofText` reads a whole line: it cuts the text into words, finds the command and reads its
arguments, and it needs nothing but the text. A monitor that runs a line carries out the request it
reads, or reports why there is none; all it does before that is to note which command it dispatches.
-/

namespace DebugMonitor

namespace Command

/-- The request that a text asks for, if it is not blank. -/
def Request.ofText (text : String) : Except Diagnostic (Option Request) :=
  match Line.ofString text with
  | .error d => .error d
  | .ok line =>
    match line.name? with
    | none => .ok none
    | some name =>
      match Verb.ofName? name with
      | none => .error (.unknownCommand name)
      | some verb => (Request.ofLine verb line).map some

/-- A text asks for a request when reading it succeeds with that request. -/
def Asks (text : String) (request : Request) : Prop :=
  Request.ofText text = .ok (some request)

theorem toOption_ofText_eq_some_iff {text : String} {request : Request} :
    (Request.ofText text).toOption = some (some request) ↔ Asks text request := by
  rw [Asks]
  cases Request.ofText text with
  | error d => exact iff_of_false nofun nofun
  | ok read => rw [Except.toOption, Option.some_inj, Except.ok.injEq]

instance (text : String) (request : Request) : Decidable (Asks text request) :=
  decidable_of_iff _ toOption_ofText_eq_some_iff

/-- A text asks for a request when its first word names a command that takes the other words. -/
theorem asks_iff {text : String} {request : Request} :
    Asks text request ↔ ∃ line verb, Line.ofString text = .ok line ∧
      line.name? = some verb.name ∧ Request.ofLine verb line = .ok request := by
  rw [Asks, Request.ofText]
  constructor
  · intro asks
    split at asks
    · cases asks
    · rename_i line hline
      split at asks
      · cases asks
      · rename_i name hname
        split at asks
        · cases asks
        · rename_i verb hverb
          cases hrequest : Request.ofLine verb line with
          | error d =>
            rw [hrequest] at asks
            cases asks
          | ok read =>
            rw [hrequest] at asks
            cases asks
            refine ⟨line, verb, hline, ?_, hrequest⟩
            rw [hname, Verb.ofName?_eq_some_iff.1 hverb]
  · rintro ⟨line, verb, hline, hname, hrequest⟩
    simp only [hline, hname, Verb.ofName?_eq_some_iff.2 rfl, hrequest]
    rfl

/-- The command that a request belongs to. -/
def Request.verb : Request → Verb
  | .help => .help
  | .kernelInfo => .kernelInfo
  | .backtrace => .backtrace
  | .shutdown => .shutdown
  | .restart => .restart
  | .showMappings _ => .showMappings
  | .setPermission _ _ => .setPermission
  | .dump _ _ => .dump
  | .resume singleStep => if singleStep then .step else .resume

private theorem exists_of_bind_eq_ok {ε α β : Type} {x : Except ε α} {f : α → Except ε β} {b : β}
    (h : (x >>= f) = .ok b) : ∃ a, x = .ok a ∧ f a = .ok b := by
  cases x with
  | error e => cases h
  | ok a => exact ⟨a, rfl, h⟩

/-- A command is read as a request of its own. -/
theorem Request.verb_of_ofLine {verb : Verb} {line : Line} {request : Request}
    (h : Request.ofLine verb line = .ok request) : request.verb = verb := by
  cases verb with
  | showMappings =>
    simp only [ofLine] at h
    split at h
    · obtain ⟨span, -, h⟩ := exists_of_bind_eq_ok h
      cases h
      rfl
    · cases h
  | setPermission =>
    simp only [ofLine] at h
    split at h
    · obtain ⟨p, -, h⟩ := exists_of_bind_eq_ok h
      obtain ⟨span, -, h⟩ := exists_of_bind_eq_ok h
      cases h
      rfl
    · cases h
  | dump =>
    simp only [ofLine] at h
    split at h
    · obtain ⟨view, -, h⟩ := exists_of_bind_eq_ok h
      obtain ⟨bytes, -, h⟩ := exists_of_bind_eq_ok h
      cases h
      rfl
    · cases h
  | help | kernelInfo | backtrace | shutdown | restart | resume | step =>
    cases h
    rfl

/-- The first word of a text that asks for a request is the name of its command. -/
theorem Asks.head? {text : String} {request : Request} (asks : Asks text request) :
    (Line.wordsOf text).head? = some request.verb.name := by
  obtain ⟨line, verb, hline, hname, hrequest⟩ := asks_iff.1 asks
  rw [Request.verb_of_ofLine hrequest, ← Line.name?_of_ofString hline, hname]

theorem View.ofToken_eq_physical_iff {token : String} :
    View.ofToken token = .ok .physical ↔ token = "P" := by
  constructor
  · intro read
    rw [View.ofToken] at read
    split at read
    · cases read
    · split at read
      · assumption
      · cases read
  · rintro rfl
    rfl

/-- A text that asks for a dump names the view in its second word. -/
theorem Asks.exists_dump_words {text : String} {view : View} {bytes : ByteSpan}
    (asks : Asks text (.dump view bytes)) :
    ∃ token rest, Line.wordsOf text = "dump" :: token :: rest ∧ View.ofToken token = .ok view := by
  obtain ⟨line, verb, hline, hname, hrequest⟩ := asks_iff.1 asks
  have hverb : verb = .dump := (Request.verb_of_ofLine hrequest).symm
  subst hverb
  simp only [Request.ofLine] at hrequest
  split at hrequest
  · rename_i token start htoken hstart
    obtain ⟨view', hview, hrequest⟩ := exists_of_bind_eq_ok hrequest
    obtain ⟨bytes', -, hrequest⟩ := exists_of_bind_eq_ok hrequest
    cases hrequest
    rw [Line.name?, Line.get?_of_ofString hline] at hname
    rw [Line.get?_of_ofString hline] at htoken
    rcases words : Line.wordsOf text with _ | ⟨name, _ | ⟨second, rest⟩⟩
    · rw [words] at hname
      cases hname
    · rw [words] at htoken
      cases htoken
    · rw [words] at hname htoken
      cases hname
      cases htoken
      exact ⟨token, rest, rfl, hview⟩
  · cases hrequest

end Command

open Command

/-- A line is run by noting the command it names and carrying out what it asks for. What is noted
depends on the line alone. -/
theorem Action.exists_notes_interpret_eq (text : String) :
    ∃ notes : Array Log.Notice, ∀ m, Action.interpret text m =
      match Request.ofText text with
      | .error d => .error (.diagnostic d) { m with journal := m.journal ++ notes }
      | .ok none => .ok .proceed { m with journal := m.journal ++ notes }
      | .ok (some request) => Action.execute request { m with journal := m.journal ++ notes } := by
  have unnoted (m : Monitor) : { m with journal := m.journal ++ #[] } = m := by
    rw [Array.append_empty]
  have noted (m : Monitor) (n : Log.Notice) :
      { m with journal := m.journal ++ #[n] } = m.note n := by
    rw [Array.append_singleton]
    rfl
  unfold Request.ofText Action.interpret
  cases Line.ofString text with
  | error d => exact ⟨#[], fun m => by rw [unnoted]; rfl⟩
  | ok line =>
    simp only [Action.ofReading, pure_bind]
    cases line.name? with
    | none => exact ⟨#[], fun m => by rw [unnoted]; rfl⟩
    | some name =>
      dsimp only
      cases Verb.ofName? name with
      | none => exact ⟨#[], fun m => by rw [unnoted]; rfl⟩
      | some verb =>
        dsimp only
        cases Request.ofLine verb line with
        | error d => exact ⟨_, fun m => by rw [noted]; rfl⟩
        | ok request => exact ⟨_, fun m => by rw [noted]; rfl⟩

theorem Action.exists_interpret_eq (text : String) (m : Monitor) :
    ∃ journal, Action.interpret text m =
      match Request.ofText text with
      | .error d => .error (.diagnostic d) { m with journal }
      | .ok none => .ok .proceed { m with journal }
      | .ok (some request) => Action.execute request { m with journal } := by
  obtain ⟨notes, interpreted⟩ := exists_notes_interpret_eq text
  exact ⟨_, interpreted m⟩

theorem Action.exists_interpret_eq_execute {text : String} {request : Request}
    (asks : Asks text request) (m : Monitor) :
    ∃ journal, Action.interpret text m = Action.execute request { m with journal } := by
  obtain ⟨journal, read⟩ := exists_interpret_eq text m
  rw [asks] at read
  exact ⟨journal, read⟩

/-- A line that asks for a request ends as the request does, up to the journal. -/
theorem Monitor.exists_runCommand_eq_of_execute {text : String} {request : Request} {flow : Flow}
    {m m' : Monitor} (asks : Asks text request)
    (run : ∀ journal, ∃ journal', Action.execute request { m with journal } =
      .ok flow { m' with journal := journal' }) :
    ∃ journal, m.runCommand text = .ok flow { m' with journal } := by
  obtain ⟨journal, read⟩ := Action.exists_interpret_eq_execute asks m
  obtain ⟨journal', ended⟩ := run journal
  refine ⟨journal', ?_⟩
  rw [runCommand, read, ended]

end DebugMonitor
