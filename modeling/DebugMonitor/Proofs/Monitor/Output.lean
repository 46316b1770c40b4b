import DebugMonitor.Proofs.Monitor.Conduct
import DebugMonitor.Proofs.Monitor.Unlimited

/-!
# How the output of a command begins

Text that was shown stays: whatever moves are made, the text shown before them is a prefix of the
text shown after them. A command that comes to its end begins its output with one of three letters,
and no diagnostic begins with any of them, so an operator can tell a diagnostic from a result.
`execute_opens` says so for every request but the two that end without output.
-/

namespace DebugMonitor

open Command

/-- The letters that the results of commands begin with. -/
def openings : List Char := ['h', 'S', '0']

theorem head?_toList_append {a : String} {c : Char} (h : a.toList.head? = some c) (b : String) :
    (a ++ b).toList.head? = some c := by
  rw [String.toList_append, List.head?_append, h]
  rfl

/-- The letter that a diagnostic begins with. -/
def Command.Diagnostic.letter : Diagnostic → Char
  | usage _ _ => 'U'
  | invalidAddress _ => 'I'
  | invalidPermission => 'I'
  | invalidAddressType => 'I'
  | noContext => 'N'
  | unknownCommand _ => 'U'
  | tooManyArguments _ => 'T'
  | consoleFailed => 'c'

theorem Command.Diagnostic.head?_message (d : Diagnostic) :
    d.message.toList.head? = some d.letter := by
  cases d with
  | usage name synopsis =>
    apply head?_toList_append
    apply head?_toList_append
    exact head?_toList_append rfl _
  | unknownCommand name =>
    apply head?_toList_append
    exact head?_toList_append rfl _
  | tooManyArguments limit =>
    apply head?_toList_append
    exact head?_toList_append rfl _
  | invalidAddress cause =>
    show "Invalid address!".toList.head? = some 'I'
    rfl
  | invalidPermission | invalidAddressType | noContext | consoleFailed => rfl

/-- No diagnostic begins like a result. -/
theorem Command.Diagnostic.letter_not_mem_openings (d : Diagnostic) : d.letter ∉ openings := by
  cases d <;> simp [letter, openings]

/-- The text begins like a result. -/
def IsResult (text : String) : Prop :=
  ∃ c ∈ openings, text.toList.head? = some c

theorem IsResult.append {a : String} (h : IsResult a) (b : String) : IsResult (a ++ b) := by
  obtain ⟨c, opening, head⟩ := h
  exact ⟨c, opening, head?_toList_append head b⟩

theorem isResult_hex : IsResult "0x" :=
  ⟨'0', by decide, rfl⟩

theorem Address.isResult_toString {space : Space} (a : Address space) : IsResult (toString a) :=
  isResult_hex.append _

theorem MappingRow.isResult_render {row : MappingRow} {text : String} (h : row.render = .ok text) :
    IsResult text := by
  rw [render] at h
  cases hstop : row.page.add PageSize.size4K.bytes with
  | error f =>
    rw [hstop] at h
    cases h
  | ok stop =>
    rw [hstop] at h
    have bounds : IsResult s!"{row.page}-{stop}  " :=
      ((row.page.isResult_toString.append _).append _).append _
    cases hmapping : row.mapping with
    | none =>
      rw [hmapping] at h
      cases h
      exact bounds.append _
    | some mapping =>
      rw [hmapping] at h
      cases h
      exact (bounds.append _).append _

/-- A write shows a first part of its text: all of it, or less where it fails. -/
theorem Terminal.exists_shown_write (t : Terminal) (text : String) :
    ∃ part, part <+: text.toList ∧ (t.write text).2.shown.toList = t.shown.toList ++ part ∧
      ((t.write text).1 = true → part = text.toList) ∧
      ((t.write text).1 = false → part.length < text.length) := by
  rw [write]
  cases t.limit with
  | none =>
    exact ⟨text.toList, List.prefix_rfl, String.toList_append, fun _ => rfl, Bool.noConfusion⟩
  | some limit =>
    by_cases fits : text.length ≤ limit.left
    · simp only [fits, if_true]
      exact ⟨text.toList, List.prefix_rfl, String.toList_append, fun _ => rfl, Bool.noConfusion⟩
    · simp only [fits, if_false]
      refine ⟨text.toList.take limit.left, List.take_prefix _ _, ?_, Bool.noConfusion, fun _ => ?_⟩
      · cases limit.once <;>
        · change (t.shown ++ _).toList = _
          rw [String.toList_append, String.toList_ofList]
      · rw [List.length_take]
        omega

/-- A write keeps what was shown before. -/
theorem Terminal.prefix_write (t : Terminal) (text : String) :
    t.shown.toList <+: (t.write text).2.shown.toList := by
  obtain ⟨part, -, shown, -⟩ := t.exists_shown_write text
  exact ⟨part, shown.symm⟩

namespace Monitor

/-- The characters shown so far. -/
def screen (m : Monitor) : List Char :=
  m.terminal.shown.toList

/-- What was shown before a run is shown after it. -/
theorem Leads.prefix_screen {allowed : Monitor → Move → Prop} {m m' : Monitor}
    (h : Leads allowed m m') : m.screen <+: m'.screen := by
  apply h.preserves
  · intro m
    exact List.prefix_rfl
  · intro a b c
    exact List.IsPrefix.trans
  · intro m move _
    cases move with
    | write text => exact m.terminal.prefix_write text
    | ask _ | note _ | perform _ | store _ | context _ | greeted => exact List.prefix_rfl

end Monitor

namespace Action

open Monitor (Unlimited)

variable {α β : Type} {m : Monitor}

/-- The action faults or answers, and leaves the terminal as it is. -/
def Silent (a : Action α) (m : Monitor) : Prop :=
  (∃ f m', a m = .error (.fault f) m') ∨ ∃ x m', a m = .ok x m' ∧ m'.terminal = m.terminal

/-- The action faults, or what it shows begins like a result. -/
def Opens (a : Action α) (m : Monitor) : Prop :=
  (∃ f m', a m = .error (.fault f) m') ∨
    ∃ c ∈ openings, m.screen ++ [c] <+: (m.after a).screen

theorem silent_ofExcept (r : Except Fault α) (m : Monitor) : Silent (ofExcept r) m := by
  cases r with
  | error f => exact .inl ⟨f, m, rfl⟩
  | ok x => exact .inr ⟨x, m, rfl, rfl⟩

theorem eq_ok_of_ofExcept {r : Except Fault α} {x : α} {m' : Monitor}
    (h : ofExcept r m = .ok x m') : r = .ok x := by
  cases r with
  | error f => cases h
  | ok y =>
    cases h
    rfl

theorem silent_note (level : Log.Level) (text : String) (m : Monitor) :
    Silent (note level text) m :=
  .inr ⟨(), _, rfl, rfl⟩

theorem silent_perform (e : Effect) (m : Monitor) : Silent (perform e) m :=
  .inr ⟨(), _, rfl, rfl⟩

theorem silent_store (leaf : Paging.Leaf) (m : Monitor) : Silent (store leaf) m :=
  .inr ⟨(), _, rfl, rfl⟩

theorem silent_get (m : Monitor) : Silent (get : Action Monitor) m :=
  .inr ⟨m, m, rfl, rfl⟩

theorem silent_lookup (va : VirtualAddress) (m : Monitor) : Silent (lookup va) m := by
  rw [Silent]
  rw [lookup_eq]
  cases m.target.walk va with
  | error f => exact .inl ⟨f, _, rfl⟩
  | ok found =>
    cases found with
    | ok leaf => exact .inr ⟨_, _, rfl, rfl⟩
    | error gap => exact .inr ⟨_, _, rfl, rfl⟩

theorem opens_print {text : String} (unlimited : m.Unlimited) (result : IsResult text) :
    Opens (print text) m := by
  obtain ⟨c, opening, head⟩ := result
  obtain ⟨rest, hrest⟩ := List.head?_eq_some_iff.1 head
  have shown : (m.after (print text)).screen = m.screen ++ text.toList := by
    rw [Monitor.after_of_ok (run_print unlimited text)]
    exact String.toList_append
  refine .inr ⟨c, opening, ?_⟩
  rw [shown, hrest]
  exact ⟨rest, by simp⟩

theorem opens_printLine {text : String} (unlimited : m.Unlimited) (result : IsResult text) :
    Opens (printLine text) m :=
  opens_print unlimited (result.append _)

/-- An action opens like its second part if the first part shows nothing. -/
theorem Opens.of_silent {a : Action α} {f : α → Action β} (unlimited : m.Unlimited)
    (first : Silent a m)
    (rest : ∀ x m', a m = .ok x m' → m'.Unlimited → Opens (f x) m') : Opens (a >>= f) m := by
  rcases first with ⟨fault, m', h⟩ | ⟨x, m', h, kept⟩
  · exact .inl ⟨fault, m', run_bind_of_error f h⟩
  · have still : m'.Unlimited := by
      rw [Unlimited, kept]
      exact unlimited
    have screen : m'.screen = m.screen := congrArg (fun t => t.shown.toList) kept
    have opens := rest x m' h still
    rw [Opens] at opens ⊢
    rwa [run_bind f h, after_bind_of_ok f h, ← screen]

/-- What is shown after the first part does not change how an action opens. -/
theorem Opens.bind {a : Action α} {f : α → Action β} (allowed : Monitor → Move → Prop)
    (first : Opens a m) (rest : ∀ x m', a m = .ok x m' → Makes allowed (f x) m') :
    Opens (a >>= f) m := by
  rcases first with ⟨fault, m', h⟩ | ⟨c, opening, shown⟩
  · exact .inl ⟨fault, m', run_bind_of_error f h⟩
  · refine .inr ⟨c, opening, ?_⟩
    cases h : a m with
    | error e m' =>
      rw [Monitor.after_of_error h] at shown
      rwa [Monitor.after_of_error (run_bind_of_error f h)]
    | ok x m' =>
      rw [Monitor.after_of_ok h] at shown
      rw [after_bind_of_ok f h]
      exact shown.trans (rest x m' h).prefix_screen

/-- Visiting a span opens like visiting its first page. -/
theorem forPages_opens {span : PageSpan .size4K} {visit : VirtualAddress → Action Unit}
    (request : Request) (first : Opens (visit span.start) m)
    (each : ∀ page ∈ span, ∀ m, Makes request.Allows (visit page) m) :
    Opens (forPages visit span.pages) m := by
  have aligned := span.isAligned_pages
  obtain ⟨rest, hnext, rest_aligned, list⟩ := Pages.exists_next?_of_lt aligned span.start_lt_stop
  rw [forPages_of_next?_eq_some hnext, forPages_eq_forM rest_aligned]
  apply Opens.bind request.Allows first
  intro _ m₁ _
  apply makes_forM
  intro page member
  apply each page
  apply PageSpan.mem_toList_iff.1
  rw [PageSpan.toList, list]
  exact List.mem_cons_of_mem _ member

/-! ### The commands -/

variable (unlimited : m.Unlimited)

include unlimited

theorem help_opens : Opens help m := by
  apply Opens.bind (Request.Allows .help) (opens_printLine unlimited ⟨'h', by decide, rfl⟩)
  intro _ m₁ _
  apply makes_forM
  intro verb _ m₂
  exact printLine_makes _

theorem kernelInfo_opens : Opens kernelInfo m := by
  apply Opens.of_silent unlimited (silent_get m)
  intro now m₁ _ unlimited
  apply Opens.bind (Request.Allows .kernelInfo) (opens_printLine unlimited ⟨'S', by decide, rfl⟩)
  intro _ m₂ _
  apply makes_bind (printLine_makes _)
  intro _ m₃ _
  apply makes_bind (makes_forM fun mark _ m => printLine_makes _)
  intro _ m₄ _
  exact printLine_makes _

theorem shutdown_opens : Opens shutdown m := by
  apply Opens.of_silent unlimited (silent_perform _ m)
  intro _ m₁ _ unlimited
  apply Opens.of_silent unlimited (silent_note _ _ m₁)
  intro _ m₂ _ unlimited
  exact opens_printLine unlimited ⟨'S', by decide, rfl⟩

theorem backtrace_opens : Opens backtrace m := by
  apply Opens.bind (Request.Allows .backtrace) (opens_printLine unlimited ⟨'S', by decide, rfl⟩)
  intro _ m₁ _
  apply makes_bind makes_get
  intro now m₂ _
  exact unwind_makes _ _ _

theorem showPage_opens (page : VirtualAddress) : Opens (showPage page) m := by
  apply Opens.of_silent unlimited (silent_lookup page m)
  intro found m₁ _ unlimited
  apply Opens.of_silent unlimited (silent_ofExcept _ m₁)
  intro row m₂ _ unlimited
  apply Opens.of_silent unlimited (silent_ofExcept _ m₂)
  intro text m₃ rendered unlimited
  apply Opens.of_silent unlimited (silent_note _ _ m₃)
  intro _ m₄ _ unlimited
  have render : row.render = .ok text := eq_ok_of_ofExcept rendered
  exact opens_printLine unlimited (MappingRow.isResult_render render)

theorem setPagePermission_opens (p : Permission) (page : VirtualAddress) :
    Opens (setPagePermission p page) m := by
  apply Opens.of_silent unlimited (silent_lookup page m)
  intro found m₁ _ unlimited
  cases found with
  | none =>
    apply Opens.of_silent unlimited (silent_note _ _ m₁)
    intro _ m₂ _ unlimited
    exact opens_printLine unlimited (page.isResult_toString.append _)
  | some leaf =>
    apply Opens.of_silent unlimited (silent_store _ m₁)
    intro _ m₂ _ unlimited
    apply Opens.of_silent unlimited (silent_ofExcept _ m₂)
    intro row m₃ _ unlimited
    apply Opens.of_silent unlimited (silent_perform _ m₃)
    intro _ m₄ _ unlimited
    apply Opens.of_silent unlimited (silent_ofExcept _ m₄)
    intro text m₅ rendered unlimited
    apply Opens.of_silent unlimited (silent_note _ _ m₅)
    intro _ m₆ _ unlimited
    have render : row.render = .ok text := eq_ok_of_ofExcept rendered
    exact opens_printLine unlimited (MappingRow.isResult_render render)

theorem dump_opens (view : View) (bytes : ByteSpan) : Opens (dump view bytes) m := by
  rw [dump, dumpRows_of_lt bytes.start_lt_stop]
  have address : IsResult ("0x" ++ Text.hexPadded 16 bytes.start ++ ":") :=
    (isResult_hex.append _).append _
  apply Opens.bind (Request.Allows (.dump view bytes)) (opens_print unlimited address)
  intro _ m₁ _
  apply makes_bind (dumpBytes_makes view bytes _ _ m₁)
  intro _ m₂ _
  apply makes_bind (makes_print _ trivial)
  intro _ m₃ _
  exact dumpRows_makes view bytes _ _ m₃

/-- What a request shows begins like a result, unless it resumes the context. -/
theorem execute_opens (request : Request) (stays : ∀ on, request ≠ .resume on) :
    Opens (execute request) m := by
  have answered {flow : Flow} {a : Action Unit} (h : Opens a m) :
      Opens (do a; return flow) m :=
    h.bind request.Allows fun _ _ _ => makes_pure _
  cases request with
  | help => exact answered (help_opens unlimited)
  | kernelInfo => exact answered (kernelInfo_opens unlimited)
  | backtrace => exact answered (backtrace_opens unlimited)
  | shutdown => exact answered (shutdown_opens unlimited)
  | restart => exact .inl ⟨.restartFailed, _, rfl⟩
  | showMappings span =>
    apply answered
    apply forPages_opens (.showMappings span) (showPage_opens unlimited _)
    intro page member m₁
    exact showPage_makes member m₁
  | setPermission p span =>
    apply answered
    apply forPages_opens (.setPermission p span) (setPagePermission_opens unlimited p _)
    intro page member m₁
    exact setPagePermission_makes p member m₁
  | dump view bytes => exact answered (dump_opens unlimited view bytes)
  | resume on => exact absurd rfl (stays on)

end Action

end DebugMonitor
