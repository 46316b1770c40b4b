import DebugMonitor.Proofs.Command.Reading
import DebugMonitor.Proofs.Monitor.Composition
import DebugMonitor.Proofs.Monitor.Editing

/-!
# The words a line depends on

A command looks at the first few words of its line. Two lines that agree in these are read as the same
request or refused with the same diagnostic (`Request.ofText_congr`), although a journal can tell them
apart, since it tells how many words there were. No command reads its journal: runs from two states that
differ in nothing else end `Alike`. Both together say that the lines do the same.
-/

namespace DebugMonitor

open Command

/-! ### Reading -/

namespace Command

/-- The number of words that a line of this name can depend on, the name included. -/
def wordsRead (name : String) : Nat :=
  if name = "showmappings" then 3
  else if name = "setperm" ∨ name = "dump" then 4
  else 1

/-- The arguments of a command are among these words. -/
theorem Request.ofLine_congr {verb : Verb} {l k : Line}
    (agree : ∀ i < wordsRead verb.name, l.get? i = k.get? i) :
    ofLine verb l = ofLine verb k := by
  cases verb with
  | showMappings =>
    have first : l.get? 1 = k.get? 1 := agree 1 (by decide)
    have second : l.get? 2 = k.get? 2 := agree 2 (by decide)
    simp only [ofLine, first, second]
  | setPermission | dump =>
    have first : l.get? 1 = k.get? 1 := agree 1 (by decide)
    have second : l.get? 2 = k.get? 2 := agree 2 (by decide)
    have third : l.get? 3 = k.get? 3 := agree 3 (by decide)
    simp only [ofLine, first, second, third]
  | help | kernelInfo | backtrace | shutdown | restart | resume | step => rfl

variable {a b name : String}

/-- Lines that agree in the words they can depend on are read alike. -/
theorem Request.ofText_congr (few : (Line.wordsOf a).length ≤ 15)
    (few' : (Line.wordsOf b).length ≤ 15) (named : (Line.wordsOf a).head? = some name)
    (agree : ∀ i < wordsRead name, (Line.wordsOf a)[i]? = (Line.wordsOf b)[i]?) :
    ofText a = ofText b := by
  obtain ⟨l, read⟩ := Line.exists_ofString_eq_ok few
  obtain ⟨l', read'⟩ := Line.exists_ofString_eq_ok few'
  have alike (i : Nat) (h : i < wordsRead name) : l.get? i = l'.get? i := by
    rw [Line.get?_of_ofString read, Line.get?_of_ofString read', agree i h]
  have first : l.name? = some name := (Line.name?_of_ofString read).trans named
  have pos : 0 < wordsRead name := by
    unfold wordsRead
    split
    · decide
    · split <;> decide
  have first' : l'.name? = some name := (alike 0 pos).symm.trans first
  simp only [ofText, read, read', first, first']
  cases known : Verb.ofName? name with
  | none => rfl
  | some verb =>
    obtain rfl := Verb.ofName?_eq_some_iff.1 known
    dsimp only
    rw [ofLine_congr alike]

end Command

/-! ### Running -/

/-- Two runs end alike: with the same answer, or cut short for the same reason, and in states that
differ in their journals at most. So terminal, target, context and trace are the same. -/
inductive Alike {ε α : Type} :
    EStateM.Result ε Monitor α → EStateM.Result ε Monitor α → Prop where
  | ok (x : α) (m : Monitor) (journal : Array Log.Notice) : Alike (.ok x m) (.ok x { m with journal })
  | error (e : ε) (m : Monitor) (journal : Array Log.Notice) :
      Alike (.error e m) (.error e { m with journal })

namespace Action

variable {α β : Type}

/-- Runs from states that differ in their journals at most end alike. -/
def Unlogged (a : Action α) : Prop :=
  ∀ (m : Monitor) (journal : Array Log.Notice), Alike (a m) (a { m with journal })

theorem unlogged_print (text : String) : Unlogged (print text) := by
  intro m journal
  have written : ({ m with journal } : Monitor).terminal.write text = m.terminal.write text := rfl
  rw [print, print, written]
  cases m.terminal.write text with
  | mk taken terminal =>
    cases taken with
    | true => exact .ok () _ journal
    | false => exact .error _ _ journal

theorem Unlogged.bind {a : Action α} {f : α → Action β} (first : Unlogged a)
    (second : ∀ x, Unlogged (f x)) : Unlogged (a >>= f) := by
  intro m journal
  have ended := first m journal
  simp only [Bind.bind, EStateM.bind]
  generalize a m = r at ended
  generalize a { m with journal } = r' at ended
  cases ended with
  | ok x m₁ journal₁ => exact second x m₁ journal₁
  | error e m₁ journal₁ => exact .error e m₁ journal₁

/-- What is put together from the operations adds to its journal and does not read it. -/
theorem Composed.unlogged {a : Action α} (h : Composed a) : Unlogged a := by
  induction h with
  | pure x => exact fun m journal => .ok x m journal
  | fault f => exact fun m journal => .error _ m journal
  | print text => exact unlogged_print text
  | note level text => exact fun m journal => .ok () (m.note ⟨level, text⟩) _
  | perform e => exact fun m journal => .ok () (m.record e) journal
  | store leaf => exact fun m journal => .ok () _ journal
  | look blind _ each =>
    intro m journal
    have same := blind m m.terminal journal
    rw [run_get_bind, run_get_bind, same]
    exact each m m journal
  | bind _ _ first second => exact first.bind second

theorem unlogged_execute (request : Request) : Unlogged (execute request) := by
  by_cases resumes : ∃ on, request = .resume on
  · obtain ⟨on, rfl⟩ := resumes
    intro m journal
    obtain context | ⟨c, context⟩ := Option.eq_none_or_eq_some m.context
    · rw [Monitor.execute_resume_of_none on context,
        Monitor.execute_resume_of_none (m := { m with journal }) on context]
      exact .error _ m journal
    · obtain ⟨notice, resumed⟩ := exists_notice_execute_resume c on
      rw [resumed m context, resumed { m with journal } context]
      exact .ok _ ({ m with context := some (c.setSingleStep on) }.note notice) _
  · exact (execute_composed request fun on same => resumes ⟨on, same⟩).unlogged

variable {a b name : String}

/-- Lines that agree in the words they can depend on are carried out alike. -/
theorem interpret_alike (few : (Line.wordsOf a).length ≤ 15) (few' : (Line.wordsOf b).length ≤ 15)
    (named : (Line.wordsOf a).head? = some name)
    (agree : ∀ i < wordsRead name, (Line.wordsOf a)[i]? = (Line.wordsOf b)[i]?) (m : Monitor) :
    Alike (interpret a m) (interpret b m) := by
  obtain ⟨notes, interpreted⟩ := exists_notes_interpret_eq a
  obtain ⟨notes', interpreted'⟩ := exists_notes_interpret_eq b
  let noted : Monitor := { m with journal := m.journal ++ notes }
  rw [interpreted, interpreted', ← Request.ofText_congr few few' named agree]
  cases Request.ofText a with
  | error d => exact .error _ noted _
  | ok read =>
    cases read with
    | none => exact .ok _ noted _
    | some request => exact unlogged_execute request noted _

end Action

namespace Monitor

theorem alike_report (m : Monitor) (journal : Array Log.Notice) (d : Diagnostic) :
    Alike (.ok Flow.proceed (m.report d) : EStateM.Result Fault Monitor Flow)
      (.ok Flow.proceed (({ m with journal } : Monitor).report d)) := by
  rw [report, report]
  cases d.notice? with
  | none => exact .ok _ _ journal
  | some n => exact .ok _ _ (journal.push n)

variable {a b name : String}

/-- A line depends on nothing but the words that its command consumes. Two lines that agree in these do
the same, whatever blanks stand between the words and whatever words follow: they end with the same flow
or the same fault, and in states that differ in their journals at most. -/
theorem runCommand_alike (few : (Line.wordsOf a).length ≤ 15) (few' : (Line.wordsOf b).length ≤ 15)
    (named : (Line.wordsOf a).head? = some name)
    (agree : ∀ i < wordsRead name, (Line.wordsOf a)[i]? = (Line.wordsOf b)[i]?) (m : Monitor) :
    Alike (m.runCommand a) (m.runCommand b) := by
  have ended := Action.interpret_alike few few' named agree m
  rw [runCommand, runCommand]
  generalize Action.interpret a m = r at ended
  generalize Action.interpret b m = r' at ended
  cases ended with
  | ok flow m' journal => exact .ok flow m' journal
  | error halt m' journal =>
    cases halt with
    | diagnostic d => exact m'.alike_report journal d
    | fault f => exact .error f m' journal

/-- The words behind the third one do not matter to a listing. -/
theorem runCommand_alike_showMappings :
    Alike (selfMapped.runCommand " showmappings\t0x0  0x2000 ")
      (selfMapped.runCommand "showmappings 0x0 0x2000 and more") := by
  have named : (Line.wordsOf " showmappings\t0x0  0x2000 ").head? = some "showmappings" := rfl
  have agree : ∀ i < wordsRead "showmappings",
      (Line.wordsOf " showmappings\t0x0  0x2000 ")[i]? =
        (Line.wordsOf "showmappings 0x0 0x2000 and more")[i]? := by decide
  exact runCommand_alike (by decide) (by decide) named agree selfMapped

end Monitor

end DebugMonitor
