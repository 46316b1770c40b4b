import DebugMonitor.Proofs.Monitor.Conduct

/-!
# Lines that resume

Two commands give the processor back, for good or for one instruction. `resuming?` tells a line that
asks for one of them by its words alone. The context changes by such a line and by no other
(`context_runCommand`), and a line resumes exactly if it is of this kind and a context is at hand
(`exists_runCommand_eq_resume_iff`).
-/

namespace DebugMonitor

open Command

namespace Command

/-- The mode in which a line resumes the context, if it asks for that: whether the program is to
stop after its next instruction. -/
def resuming? (text : String) : Option Bool :=
  if (Line.wordsOf text).length ≤ 15 then
    match (Line.wordsOf text).head? with
    | some "s" => some true
    | some "c" => some false
    | _ => none
  else
    none

theorem resuming?_eq_some_iff {text : String} {on : Bool} :
    resuming? text = some on ↔ (Line.wordsOf text).length ≤ 15 ∧
      (Line.wordsOf text).head? = some (if on then "s" else "c") := by
  rw [resuming?]
  split
  · rename_i short
    split <;> rename_i head <;> cases on <;> simp_all
  · rename_i long
    simp [long]

theorem isSome_resuming?_iff {text : String} :
    (resuming? text).isSome = true ↔ 1 ≤ (Line.wordsOf text).length ∧
      (Line.wordsOf text).length ≤ 15 ∧
      ((Line.wordsOf text).head? = some "c" ∨ (Line.wordsOf text).head? = some "s") := by
  simp only [Option.isSome_iff_exists, resuming?_eq_some_iff]
  constructor
  · rintro ⟨on, short, head⟩
    refine ⟨?_, short, ?_⟩
    · cases hwords : Line.wordsOf text with
      | nil =>
        rw [hwords] at head
        cases head
      | cons name arguments => exact Nat.succ_pos _
    · cases on with
      | false => exact .inl head
      | true => exact .inr head
  · rintro ⟨-, short, resume | step⟩
    · exact ⟨false, short, resume⟩
    · exact ⟨true, short, step⟩

/-- The lines that ask for the context to be resumed. -/
theorem asks_resume_iff {text : String} {on : Bool} :
    Asks text (.resume on) ↔ resuming? text = some on := by
  rw [resuming?_eq_some_iff]
  constructor
  · intro asks
    obtain ⟨line, verb, hline, -, -⟩ := asks_iff.1 asks
    have short : line.length < 16 := line.length_lt
    rw [Line.length_of_ofString hline] at short
    refine ⟨Nat.le_of_lt_succ short, ?_⟩
    cases on <;> exact asks.head?
  · rintro ⟨short, head⟩
    obtain ⟨line, read⟩ := Line.exists_ofString_eq_ok short
    have named := (Line.name?_of_ofString read).trans head
    apply asks_iff.2
    refine ⟨line, if on then .step else .resume, read, ?_, ?_⟩
    · rw [named]
      cases on <;> rfl
    · cases on <;> rfl

end Command

namespace Action

variable {m m' : Monitor}

/-- A context at hand is resumed; what is noted of it depends on the context alone. -/
theorem exists_notice_execute_resume (context : Cpu.Context) (on : Bool) :
    ∃ notice, ∀ m : Monitor, m.context = some context →
      execute (.resume on) m =
        .ok .resume ({ m with context := some (context.setSingleStep on) }.note notice) := by
  let what := if on then "single-stepping" else "continuing"
  refine ⟨⟨.info, what ++ " at rip 0x" ++ Text.hexPadded 16 context.rip⟩, ?_⟩
  intro m h
  cases m
  cases h
  rfl

/-- Every other request proceeds, if it comes to its end. -/
theorem eq_proceed_of_execute {request : Request} (stays : ∀ on, request ≠ .resume on)
    {flow : Flow} (h : execute request m = .ok flow m') : flow = .proceed := by
  have answered {a : Action Unit} (h : (do a; return Flow.proceed) m = .ok flow m') :
      flow = .proceed := by
    cases run : a m with
    | ok _ m₁ =>
      rw [run_bind _ run] at h
      cases h
      rfl
    | error e m₁ =>
      rw [run_bind_of_error _ run] at h
      cases h
  cases request with
  | resume on => exact absurd rfl (stays on)
  | help | kernelInfo | backtrace | shutdown | restart | showMappings | setPermission | dump =>
    exact answered h

end Action

namespace Cpu.Context

@[simp] theorem setSingleStep_setSingleStep (c : Context) (a b : Bool) :
    (c.setSingleStep a).setSingleStep b = c.setSingleStep b := by
  have flags : (c.flags.set .trap a).set .trap b = c.flags.set .trap b := by
    apply congrArg Flags.mk
    apply Word.eq_of_testBit_eq
    intro i
    have outer := Flags.testBit_bits_set (c.flags.set .trap a) .trap b i
    have inner := Flags.testBit_bits_set c.flags .trap a i
    have direct := Flags.testBit_bits_set c.flags .trap b i
    refine outer.trans ?_
    rw [inner]
    refine Eq.trans ?_ direct.symm
    split <;> rfl
  rw [setSingleStep, setSingleStep, flags, setSingleStep]

/-- What a line makes of the context it finds. -/
def resumeBy (c : Context) (text : String) : Context :=
  match resuming? text with
  | some on => c.setSingleStep on
  | none => c

end Cpu.Context

namespace Monitor

variable {text : String} {m : Monitor}

/-- Without a context there is nothing to resume. -/
theorem execute_resume_of_none (on : Bool) (h : m.context = none) :
    Action.execute (.resume on) m = .error (.diagnostic .noContext) m := by
  cases m
  cases h
  rfl

/-- A line that asks to resume where there is a context. -/
theorem exists_runCommand_eq_resume {on : Bool} {context : Cpu.Context}
    (asked : resuming? text = some on) (present : m.context = some context) :
    ∃ journal, m.runCommand text =
      .ok .resume { m with context := some (context.setSingleStep on), journal } := by
  obtain ⟨journal, read⟩ := Action.exists_interpret_eq text m
  obtain ⟨notice, resumed⟩ := Action.exists_notice_execute_resume context on
  rw [asks_resume_iff.2 asked] at read
  have interpreted := read.trans (resumed { m with journal } present)
  refine ⟨journal.push notice, ?_⟩
  rw [runCommand, interpreted]
  rfl

/-- A line that asks to resume where there is none. -/
theorem exists_runCommand_eq_report_noContext {on : Bool} (asked : resuming? text = some on)
    (absent : m.context = none) :
    ∃ journal, m.runCommand text = .ok .proceed (report { m with journal } .noContext) := by
  obtain ⟨journal, read⟩ := Action.exists_interpret_eq text m
  rw [asks_resume_iff.2 asked] at read
  have interpreted := read.trans (execute_resume_of_none (m := { m with journal }) on absent)
  refine ⟨journal, ?_⟩
  rw [runCommand, interpreted]

/-- No other line resumes. -/
theorem exists_resuming?_of_runCommand {m' : Monitor} (ran : m.runCommand text = .ok .resume m') :
    ∃ on, resuming? text = some on := by
  obtain ⟨journal, read⟩ := Action.exists_interpret_eq text m
  have interpreted : Action.interpret text m = .ok .resume m' := by
    rw [runCommand] at ran
    split at ran
    · rename_i h
      cases ran
      exact h
    · cases ran
    · cases ran
  rw [read] at interpreted
  cases asked : Request.ofText text with
  | error d =>
    rw [asked] at interpreted
    cases interpreted
  | ok request? =>
    rw [asked] at interpreted
    cases request? with
    | none => cases interpreted
    | some request =>
      by_cases resumes : ∃ on, request = .resume on
      · obtain ⟨on, rfl⟩ := resumes
        exact ⟨on, asks_resume_iff.1 asked⟩
      · have stays : ∀ on, request ≠ .resume on := fun on same => resumes ⟨on, same⟩
        cases Action.eq_proceed_of_execute stays interpreted

/-- The context changes as the line says, and by lines that resume only. -/
theorem context_runCommand (text : String) (m : Monitor) :
    (m.after (runCommand text)).context = m.context.map (·.resumeBy text) := by
  cases asked : resuming? text with
  | none =>
    have same : m.context.map (·.resumeBy text) = m.context := by
      simp only [Cpu.Context.resumeBy, asked, Option.map_id']
    rw [same]
    refine (runCommand_leads text m).keeps (f := context) ?_
    intro m move allowed
    cases move with
    | context c =>
      rcases allowed with tells | ⟨line, member, request, asks, on, rfl, -⟩
      · cases tells
      · cases List.mem_singleton.1 member
        rw [asks_resume_iff, asked] at asks
        cases asks
    | write _ | ask _ | note _ | perform _ | store _ | greeted => rfl
  | some on =>
    cases hcontext : m.context with
    | none =>
      obtain ⟨journal, ran⟩ := exists_runCommand_eq_report_noContext asked hcontext
      rw [after_of_ok ran]
      exact hcontext
    | some context =>
      obtain ⟨journal, ran⟩ := exists_runCommand_eq_resume asked hcontext
      rw [after_of_ok ran, Option.map_some, Cpu.Context.resumeBy, asked]

/-- A line resumes exactly if it asks for it and a context is at hand. -/
theorem exists_runCommand_eq_resume_iff :
    (∃ m', m.runCommand text = .ok .resume m') ↔
      m.context.isSome = true ∧ (resuming? text).isSome = true := by
  constructor
  · rintro ⟨m', ran⟩
    obtain ⟨on, asked⟩ := exists_resuming?_of_runCommand ran
    refine ⟨?_, Option.isSome_iff_exists.2 ⟨on, asked⟩⟩
    cases hcontext : m.context with
    | some context => rfl
    | none =>
      obtain ⟨journal, refused⟩ := exists_runCommand_eq_report_noContext asked hcontext
      rw [refused] at ran
      cases ran
  · rintro ⟨present, asked⟩
    obtain ⟨on, asked⟩ := Option.isSome_iff_exists.1 asked
    obtain ⟨context, hcontext⟩ := Option.isSome_iff_exists.1 present
    obtain ⟨journal, ran⟩ := exists_runCommand_eq_resume asked hcontext
    exact ⟨_, ran⟩

end Monitor

end DebugMonitor
