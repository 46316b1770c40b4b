import DebugMonitor.Proofs.Cpu.Listing
import DebugMonitor.Proofs.Monitor.Output
import DebugMonitor.Proofs.Monitor.Serving
import DebugMonitor.Proofs.Session.Conduct

/-!
# Greetings over a session

An entry to the monitor opens with a heading: the place of the trap while the context is single-stepped,
and the welcome otherwise, unless an earlier heading has come through. The terminal may fail within a
heading, at any character. The entry then shows nothing more and counts for nothing, but it prompts and
serves its script like any other.

`entrances` lists the entries of a session with the monitor that each one finds. Whether a monitor has
greeted is told by the entries before it: one of them had its heading taken by the terminal
(`greeted_of_entrances`, the induction over the calls). `greets_once` says what each entry shows, and
that of all entries one at most shows the welcome in full.
-/

namespace DebugMonitor

open Command

namespace Monitor

/-- What greets an operator who has not been greeted. -/
def welcomeText : String :=
  "Welcome to the kernel monitor!\nType 'help' for a list of commands.\n"

/-- What tells where a single step ended. -/
def stepText (context : Cpu.Context) : String :=
  "Single-step trap at rip 0x" ++ Text.hexPadded 16 context.rip ++ "\n"

/-- The heading of an entry, by whether an earlier heading has come through. -/
def headingAfter (m : Monitor) (earlier : Bool) : String :=
  match m.context.filter (·.isSingleStep) with
  | some context => stepText context
  | none => if earlier then "" else welcomeText

/-- Whether the terminal takes all of the heading. -/
def comesThrough (m : Monitor) : Bool :=
  (m.terminal.write m.heading).1

/-- What is shown of the trapped context on entry. -/
def contextText (m : Monitor) : String :=
  match m.context with
  | some context => if m.options.showContext then Text.unlines context.lines else ""
  | none => ""

/-- The greeting shows a text in full, before anything else. -/
def GreetsWith (m : Monitor) (text : String) : Prop :=
  ∃ rest, m.greet.terminal.shown = m.terminal.shown ++ text ++ rest

variable {m : Monitor}

theorem heading_eq (m : Monitor) : m.heading = m.headingAfter m.greeted := by
  rw [heading, headingAfter]
  cases m.context with
  | none => rfl
  | some context =>
    rw [Option.filter_some]
    by_cases armed : context.isSingleStep = true
    · simp only [armed, if_true]
      rfl
    · simp only [armed]
      rfl

theorem greet_eq_after (m : Monitor) : m.greet = m.after greeting := by
  rw [greet, after]
  cases greeting m <;> rfl

/-- The greeting in full. It ends with a heading that fails, and the monitor has then greeted no more
than before. -/
theorem greet_eq (m : Monitor) :
    m.greet =
      if m.comesThrough then
        { m with
          greeted := true
          terminal := ((m.terminal.write m.heading).2.write m.contextText).2 }
      else { m with terminal := (m.terminal.write m.heading).2 } := by
  rw [greet_eq_after, greeting, after, Action.run_get_bind, comesThrough]
  cases taken : m.terminal.write m.heading with
  | mk whole terminal =>
    cases whole with
    | false =>
      have failed : Action.print m.heading m = .error (.diagnostic .consoleFailed) { m with terminal } :=
        Action.run_print_of_failed taken m
      simp only [bind, EStateM.bind, failed, Bool.false_eq_true, if_false]
    | true =>
      have shown : Action.print m.heading m = .ok () { m with terminal } :=
        Action.run_print_of_taken taken m
      have entered : (modify fun m => { m with greeted := true } : Action Unit) { m with terminal } =
          .ok () { m with greeted := true, terminal } := rfl
      have got (m : Monitor) : (get : Action Monitor) m = .ok m m := rfl
      simp only [bind, EStateM.bind, shown, entered, got, if_true]
      rw [contextText]
      cases m.context with
      | none =>
        rw [Terminal.write_empty]
        rfl
      | some context =>
        by_cases asked : m.options.showContext = true
        · simp only [asked, if_true, ← context.render_eq_unlines]
          exact Action.after_print _ context.render
        · simp only [asked, Bool.false_eq_true, if_false, Terminal.write_empty]
          rfl

theorem greet_of_comesThrough (whole : m.comesThrough = true) :
    m.greet = { m with
      greeted := true
      terminal := ((m.terminal.write m.heading).2.write m.contextText).2 } := by
  rw [greet_eq, if_pos whole]

theorem greet_of_not_comesThrough (cut : m.comesThrough = false) :
    m.greet = { m with terminal := (m.terminal.write m.heading).2 } := by
  rw [greet_eq, cut, if_neg Bool.false_ne_true]

theorem greeted_greet (m : Monitor) : m.greet.greeted = (m.greeted || m.comesThrough) := by
  cases through : m.comesThrough with
  | true => rw [greet_of_comesThrough through, Bool.or_true]
  | false => rw [greet_of_not_comesThrough through, Bool.or_false]

/-! ### What a greeting shows first

A heading and a context begin with different letters, so the first letter tells which it is. -/

/-- Whatever is shown of the context begins like a context. -/
theorem head?_contextText (m : Monitor) {c : Char} (h : m.contextText.toList.head? = some c) :
    c = 'T' := by
  have begins (context : Cpu.Context) :
      (Text.unlines context.lines).toList.head? = some 'T' := by
    rw [Cpu.Context.lines, Text.unlines_cons]
    exact head?_toList_append rfl _
  rw [contextText] at h
  cases given : m.context with
  | none =>
    rw [given] at h
    cases h
  | some context =>
    rw [given] at h
    dsimp only at h
    split at h
    · rw [begins] at h
      exact (Option.some.inj h).symm
    · cases h

theorem head?_stepText (context : Cpu.Context) : (stepText context).toList.head? = some 'S' := by
  apply head?_toList_append
  exact head?_toList_append rfl _

theorem head?_welcomeText : welcomeText.toList.head? = some 'W' := by
  rfl

theorem headingAfter_ne_welcomeText (m : Monitor) : m.headingAfter true ≠ welcomeText := by
  intro same
  have begins : (m.headingAfter true).toList.head? = some 'W' := by
    rw [same, head?_welcomeText]
  rw [headingAfter] at begins
  split at begins
  · rw [head?_stepText] at begins
    exact absurd begins (by decide)
  · cases begins

/-- A greeting shows a first part of its heading and of what follows, and not all of a heading that
fails. -/
theorem exists_shown_greet (m : Monitor) :
    ∃ part, part <+: m.heading.toList ++ m.contextText.toList ∧
      m.greet.terminal.shown.toList = m.terminal.shown.toList ++ part ∧
      (m.comesThrough = false → part.length < m.heading.length) := by
  obtain ⟨part, first, shown, whole, cut⟩ := m.terminal.exists_shown_write m.heading
  cases through : m.comesThrough with
  | false =>
    rw [greet_of_not_comesThrough through]
    exact ⟨part, first.trans (List.prefix_append _ _), shown, fun _ => cut through⟩
  | true =>
    obtain ⟨more, second, follows, -⟩ := (m.terminal.write m.heading).2.exists_shown_write m.contextText
    obtain rfl := whole through
    rw [greet_of_comesThrough through]
    refine ⟨m.heading.toList ++ more, (List.prefix_append_right_inj _).2 second, ?_, Bool.noConfusion⟩
    rw [follows, shown, List.append_assoc]

/-- What a greeting shows in full belongs to its heading or to what follows. -/
theorem GreetsWith.exists_part {text : String} (h : m.GreetsWith text) :
    ∃ part, text.toList <+: part ∧ part <+: m.heading.toList ++ m.contextText.toList ∧
      (m.comesThrough = false → part.length < m.heading.length) := by
  obtain ⟨rest, opened⟩ := h
  obtain ⟨part, first, shown, cut⟩ := m.exists_shown_greet
  rw [opened, String.toList_append, String.toList_append, List.append_assoc] at shown
  obtain rfl := List.append_cancel_left shown
  exact ⟨_, List.prefix_append _ _, first, cut⟩

theorem GreetsWith.comesThrough (h : m.GreetsWith m.heading) : m.comesThrough = true := by
  obtain ⟨part, whole, -, cut⟩ := h.exists_part
  have long := whole.length_le
  rw [String.length_toList] at long
  by_contra through
  exact absurd (cut (Bool.eq_false_of_not_eq_true through)) (Nat.not_lt.2 long)

/-- The welcome is shown in full only as the heading. -/
theorem GreetsWith.heading_eq (h : m.GreetsWith welcomeText) : m.heading = welcomeText := by
  obtain ⟨part, whole, first, -⟩ := h.exists_part
  obtain ⟨rest, shown⟩ := whole.trans first
  have begins := congrArg List.head? shown
  rw [List.head?_append, List.head?_append, head?_welcomeText, Option.some_or] at begins
  rw [Monitor.heading_eq, headingAfter] at begins ⊢
  cases step : m.context.filter (·.isSingleStep) with
  | some context =>
    rw [step] at begins
    dsimp only at begins
    rw [head?_stepText, Option.some_or] at begins
    exact absurd begins (by decide)
  | none =>
    rw [step] at begins
    cases earlier : m.greeted with
    | false => rfl
    | true =>
      rw [earlier] at begins
      have follows : m.contextText.toList.head? = some 'W' := begins.symm
      exact absurd (m.head?_contextText follows) (by decide)

theorem heading_of_isSingleStep {context : Cpu.Context} (given : m.context = some context)
    (armed : context.isSingleStep = true) : m.heading = stepText context := by
  rw [Monitor.heading_eq, headingAfter, given, Option.filter_some, if_pos armed]

/-! ### Serving after the greeting -/

section

variable {R : Monitor → Monitor → Prop} (prompt : String)

/-- What prompts and lines preserve, serving preserves from its first prompt on. -/
theorem serve_preserves (refl : ∀ m, R m m) (trans : ∀ {a b c}, R a b → R b c → R a c)
    (ask : ∀ m, R m (m.ask prompt)) (line : ∀ text m, R m (m.after (runCommand text)))
    (script : List (Option String)) (m : Monitor) :
    R (m.ask prompt) (serve prompt script m).monitor := by
  induction script generalizing m with
  | nil => exact refl _
  | cons item script ih =>
    cases item with
    | none => exact trans (ask _) (ih (m.ask prompt))
    | some text =>
      have ran := line text (m.ask prompt)
      rw [serve]
      cases h : (m.ask prompt).runCommand text with
      | error f m' =>
        rw [after_of_error h] at ran
        exact ran
      | ok flow m' =>
        rw [after_of_ok h] at ran
        cases flow with
        | resume => exact ran
        | proceed => exact trans ran (trans (ask m') (ih m'))

end

/-- No line has a part in whether the operator has been greeted. -/
theorem greeted_runCommand (text : String) (m : Monitor) :
    (m.after (runCommand text)).greeted = m.greeted := by
  refine (runCommand_leads text m).keeps (f := greeted) ?_
  intro m move allowed
  cases move with
  | greeted =>
    rcases allowed with told | ⟨_, _, request, _, allowed⟩
    · cases told
    · cases request <;> cases allowed
  | write _ | ask _ | note _ | perform _ | store _ | context _ => rfl

theorem greeted_run (script : List (Option String)) (m : Monitor) :
    (m.run script).monitor.greeted = (m.greeted || m.comesThrough) := by
  have served := serve_preserves m.prompt (R := fun a b => b.greeted = a.greeted)
    (fun _ => rfl) (fun h₁ h₂ => h₂.trans h₁) (fun _ => rfl) greeted_runCommand script m.greet
  exact served.trans m.greeted_greet

/-- An entry prompts, whatever became of its greeting. -/
theorem prefix_prompts_run (script : List (Option String)) (m : Monitor) :
    m.terminal.prompts.toList ++ [m.prompt] <+: (m.run script).monitor.terminal.prompts.toList := by
  have asked (m : Monitor) (prompt : String) :
      m.terminal.prompts.toList <+: (m.ask prompt).terminal.prompts.toList := by
    change _ <+: (m.terminal.prompts.push prompt).toList
    rw [Array.toList_push]
    exact List.prefix_append _ _
  have served := serve_preserves m.prompt
    (R := fun a b => a.terminal.prompts.toList <+: b.terminal.prompts.toList)
    (fun _ => List.prefix_rfl) List.IsPrefix.trans (fun m' => asked m' m.prompt) ?line script m.greet
  case line =>
    intro text m
    refine (runCommand_leads text m).preserves
      (R := fun a b => a.terminal.prompts.toList <+: b.terminal.prompts.toList)
      (fun _ => List.prefix_rfl) List.IsPrefix.trans ?_
    intro m move _
    cases move with
    | write text =>
      have kept := congrArg Array.toList (m.terminal.prompts_write text)
      exact kept.symm ▸ List.prefix_rfl
    | ask prompt => exact asked m prompt
    | note _ | perform _ | store _ | context _ | greeted => exact List.prefix_rfl
  change (m.greet.terminal.prompts.push m.prompt).toList <+: _ at served
  rwa [Array.toList_push, prompts_greet] at served

end Monitor

namespace Session

/-- An entry to the monitor: how it finds the monitor, and its script. -/
structure Entrance where
  monitor : Monitor
  script : List (Option String)

/-- The entry that a call makes. -/
def Call.entrance? (s : Session) : Call → Option Entrance
  | .visit script withContext => some ⟨s.enter withContext, script⟩
  | .command _ _ => none
  | .limit _ _ => none
  | .trap _ => none

/-- The entries of a session in order, up to one that faults. -/
def entrances (s : Session) : List Call → List Entrance
  | [] => []
  | call :: calls =>
    (call.entrance? s).toList ++
      match s.perform call with
      | (⟨.ok _, _⟩, s) => s.entrances calls
      | (⟨.error _, _⟩, _) => []

variable {s : Session} {call : Call} {e : Entrance}

theorem greeted_perform (s : Session) (call : Call) :
    (s.perform call).2.monitor.greeted =
      (s.monitor.greeted || (call.entrance? s).any (·.monitor.comesThrough)) := by
  cases call with
  | command text withContext =>
    have kept := Monitor.greeted_runCommand text (s.enter withContext)
    rw [perform, Call.entrance?, Option.any_none, Bool.or_false]
    cases h : (s.enter withContext).runCommand text with
    | ok flow m =>
      rw [Monitor.after_of_ok h] at kept
      exact kept
    | error f m =>
      rw [Monitor.after_of_error h] at kept
      exact kept
  | visit script withContext => exact Monitor.greeted_run script (s.enter withContext)
  | limit l later => exact (Bool.or_false _).symm
  | trap context => exact (Bool.or_false _).symm

theorem options_perform (s : Session) (call : Call) :
    (s.perform call).2.monitor.options = s.monitor.options := by
  have kept (m : Monitor) (move : Move) : (move.apply m).options = m.options := by
    cases move <;> rfl
  have preserved : Preserves call.lines fun a b => b.options = a.options :=
    ⟨fun _ => rfl, fun h₁ h₂ => h₂.trans h₁, fun m move _ => kept m move, fun _ _ => rfl,
      fun _ _ => rfl⟩
  exact perform_preserves preserved s (List.Subset.refl _)

theorem monitor_of_entrance (h : call.entrance? s = some e) :
    e.monitor.greeted = s.monitor.greeted ∧ e.monitor.options = s.monitor.options := by
  cases call with
  | visit script withContext =>
    cases h
    exact ⟨rfl, rfl⟩
  | command _ _ | limit _ _ | trap _ => cases h

/-- Behind the entry of a call stand those of the calls after it, unless it faults. -/
theorem exists_entrances_cons (s : Session) (call : Call) (calls : List Call) :
    ∃ rest, s.entrances (call :: calls) = (call.entrance? s).toList ++ rest ∧
      (rest = [] ∨ rest = (s.perform call).2.entrances calls) := by
  refine ⟨_, rfl, ?_⟩
  split
  · rename_i performed
    rw [performed]
    exact .inr rfl
  · exact .inl rfl

/-- A monitor has greeted if it had at the start, or if an entry before has come through. -/
theorem greeted_of_entrances {calls : List Call} {before after : List Entrance}
    (split : s.entrances calls = before ++ e :: after) :
    e.monitor.greeted = (s.monitor.greeted || before.any (·.monitor.comesThrough)) ∧
      e.monitor.options = s.monitor.options := by
  induction calls generalizing s before with
  | nil => cases before <;> cases split
  | cons call calls ih =>
    obtain ⟨rest, listed, ends⟩ := s.exists_entrances_cons call calls
    rw [listed] at split
    have later {first : List Entrance} (behind : rest = first ++ e :: after) :
        e.monitor.greeted =
            ((s.monitor.greeted || (call.entrance? s).any (·.monitor.comesThrough)) ||
              first.any (·.monitor.comesThrough)) ∧
          e.monitor.options = s.monitor.options := by
      rcases ends with rfl | rfl
      · cases first <;> cases behind
      · rw [← greeted_perform, ← s.options_perform call]
        exact ih behind
    cases entered : call.entrance? s with
    | none =>
      rw [entered] at split later
      rw [← Bool.or_false s.monitor.greeted]
      exact later split
    | some found =>
      rw [entered] at split later
      cases before with
      | nil =>
        cases split
        rw [List.any_nil, Bool.or_false]
        exact monitor_of_entrance entered
      | cons first before =>
        obtain ⟨rfl, behind⟩ := List.cons.inj split
        rw [List.any_cons, ← Bool.or_assoc]
        exact later behind

/-- The greeting of an entry, by the entries before it. A monitor starts without having greeted. Its
entry opens with the place of the trap while single-stepping, and else with the welcome, unless the
heading of an earlier entry has come through. A heading that fails leaves that as it was and is all that
is shown; one that comes through is followed by the context, if there is one and the options ask for it.
Either way the script is served, with a prompt at the least. So of all entries one at most shows the
welcome in full, and none does behind an entry that showed the place of its trap in full. -/
theorem greets_once (terminal : Terminal) (target : Target) (options : Options)
    (context : Cpu.Context) (calls : List Call) (before after : List Entrance) (m : Monitor)
    (script : List (Option String))
    (split : entrances ⟨{ terminal, target, options }, context⟩ calls =
      before ++ ⟨m, script⟩ :: after) :
    let earlier := before.any (·.monitor.comesThrough)
    let headed := m.terminal.write (m.headingAfter earlier)
    m.heading = m.headingAfter earlier ∧
    m.run script = Monitor.serve m.prompt script
      (if headed.1 then
        { m with
          greeted := true
          terminal := (headed.2.write m.contextText).2 }
      else { m with greeted := earlier, terminal := headed.2 }) ∧
    m.options = options ∧
    m.terminal.prompts.toList ++ [m.prompt] <+: (m.run script).monitor.terminal.prompts.toList ∧
    ∀ e ∈ before,
      (e.monitor.GreetsWith Monitor.welcomeText ∨
        ∃ c, e.monitor.context = some c ∧ c.isSingleStep = true ∧
          e.monitor.GreetsWith (Monitor.stepText c)) →
      ¬ m.GreetsWith Monitor.welcomeText := by
  obtain ⟨greeted, kept⟩ := greeted_of_entrances split
  rw [Bool.false_or] at greeted
  have heading := m.heading_eq
  rw [greeted] at heading
  intro earlier headed
  refine ⟨heading, ?entered, kept, m.prefix_prompts_run script, ?once⟩
  case entered =>
    have before : earlier = m.greeted := greeted.symm
    have shown : m.terminal.write m.heading = headed := congrArg m.terminal.write heading
    change Monitor.serve m.prompt script m.greet = _
    rw [m.greet_eq, Monitor.comesThrough, shown, before]
  case once =>
    intro e member shown again
    have through : e.monitor.comesThrough = true := by
      rcases shown with welcomed | ⟨c, given, armed, stepped⟩
      · rw [← welcomed.heading_eq] at welcomed
        exact welcomed.comesThrough
      · rw [← Monitor.heading_of_isSingleStep given armed] at stepped
        exact stepped.comesThrough
    rw [List.any_eq_true.2 ⟨e, member, through⟩] at heading
    exact m.headingAfter_ne_welcomeText (heading.symm.trans again.heading_eq)

/-- The first heading fails within its first word, the second one comes through, and the third entry has
none. -/
theorem greets_once_retried :
    ∃ first second third : Entrance,
      entrances {} [.limit (some ⟨5, true⟩), .visit [] false, .visit [] false, .visit [] true] =
        [first, second, third] ∧
      first.monitor.comesThrough = false ∧ second.monitor.GreetsWith Monitor.welcomeText ∧
      third.monitor.heading = "" ∧ ¬ third.monitor.GreetsWith Monitor.welcomeText := by
  refine ⟨_, _, _, rfl, rfl, ⟨"", rfl⟩, rfl, ?_⟩
  have third := greets_once {} {} {} {}
    [.limit (some ⟨5, true⟩), .visit [] false, .visit [] false, .visit [] true]
    [_, _] [] _ _ rfl
  exact third.2.2.2.2 _ (List.mem_cons_of_mem _ (List.mem_singleton_self _)) (.inl ⟨"", rfl⟩)

end Session

end DebugMonitor
