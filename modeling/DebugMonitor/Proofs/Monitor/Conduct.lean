import DebugMonitor.Proofs.Command.Reading
import DebugMonitor.Proofs.Monitor.Move
import DebugMonitor.Proofs.Page.Listing
import DebugMonitor.Monitor.Serve

/-!
# What commands may do

`Request.Allows` lists, request by request, the moves that carrying it out may consist of: what it
may ask of the target, which entries it may write and with what, and how it may change the context.
`execute_makes` shows that every command keeps to its list, from any state and however it ends, be
it by a diagnostic, a fault or a terminal that fails at any point. `runCommand_leads` and
`run_leads` carry this over to lines and to whole visits.
-/

namespace DebugMonitor

open Command

namespace Command.Request

/-- What a request may ask of the target. -/
def Performs : Request → Effect → Prop
  | .backtrace, .readWord _ => True
  | .shutdown, .powerOff => True
  | .restart, .reset => True
  | .showMappings span, .lookup va => va ∈ span
  | .setPermission _ span, .lookup va => va ∈ span
  | .setPermission _ span, .flush va => va ∈ span
  | .dump _ _, .readByte _ => True
  | _, _ => False

/-- The entries a request may write: leaves of its pages, with their permissions replaced. -/
def Stores (request : Request) (m : Monitor) (leaf : Paging.Leaf) : Prop :=
  ∃ p span, request = .setPermission p span ∧ ∃ page ∈ span, ∃ found,
    m.target.space.walk page = .ok found ∧ leaf = { found with entry := p.apply found.entry }

/-- The moves that carrying out a request may consist of. -/
def Allows (request : Request) (m : Monitor) : Move → Prop
  | .write _ => True
  | .note _ => True
  | .perform e => request.Performs e
  | .store leaf => request.Stores m leaf
  | .context c => ∃ on, request = .resume on ∧
      ∃ before, m.context = some before ∧ c = before.setSingleStep on
  | _ => False

end Command.Request

namespace Action

variable {m : Monitor} {request : Request}

theorem printLine_makes (text : String) : Makes request.Allows (printLine text) m :=
  makes_print _ trivial

theorem help_makes : Makes (Request.Allows .help) help m := by
  apply makes_forM
  intro verb _ m₁
  exact printLine_makes _

theorem kernelInfo_makes : Makes (Request.Allows .kernelInfo) kernelInfo m := by
  apply makes_bind makes_get
  intro now m₁ _
  apply makes_bind (printLine_makes _)
  intro _ m₂ _
  apply makes_bind (printLine_makes _)
  intro _ m₃ _
  apply makes_bind (makes_forM fun mark _ m => printLine_makes _)
  intro _ m₄ _
  exact printLine_makes _

theorem shutdown_makes : Makes (Request.Allows .shutdown) shutdown m := by
  apply makes_bind (makes_perform _ trivial)
  intro _ m₁ _
  apply makes_bind (makes_note _ _ trivial)
  intro _ m₂ _
  exact printLine_makes _

theorem restart_makes : Makes (Request.Allows .restart) restart m := by
  apply makes_bind (makes_perform _ trivial)
  intro _ m₁ _
  apply makes_bind (makes_note _ _ trivial)
  intro _ m₂ _
  exact makes_throw _

theorem resume_makes (on : Bool) : Makes (Request.Allows (.resume on)) (resume on) m := by
  apply makes_bind makes_get
  intro now m₁ hget
  cases hget
  cases hcontext : m.context with
  | none => exact makes_fail _
  | some context =>
    refine makes_bind (.single (.context _) ⟨on, rfl, context, hcontext, rfl⟩) ?_
    intro _ m₂ _
    exact makes_note _ _ trivial

/-! ### Loops over pages -/

/-- A span is visited page by page, in the order of its list. -/
theorem forPages_eq_forM {size : PageSize} {visit : VirtualAddress → Action Unit}
    {p : Pages size} (aligned : p.IsAligned) : forPages visit p = p.toList.forM visit := by
  rcases Nat.lt_or_ge p.next.word.toNat p.stop.word.toNat with below | beyond
  · obtain ⟨rest, hnext, rest_aligned, list⟩ :=
      Pages.exists_next?_of_lt aligned (Address.lt_iff.2 below)
    have shorter := Pages.lt_of_next?_eq_some hnext
    rw [forPages_of_next?_eq_some hnext, list, forPages_eq_forM rest_aligned]
    rfl
  · have ended := Address.le_iff.2 beyond
    rw [forPages_of_next?_eq_none (Pages.next?_eq_none_iff.2 ended), Pages.toList_of_le ended]
    rfl
termination_by p.stop.word.toNat - p.next.word.toNat

theorem forPages_pages {size : PageSize} (visit : VirtualAddress → Action Unit)
    (span : PageSpan size) : forPages visit span.pages = span.toList.forM visit :=
  forPages_eq_forM span.isAligned_pages

theorem forPages_makes {size : PageSize} {visit : VirtualAddress → Action Unit}
    {span : PageSpan size} (each : ∀ page ∈ span, ∀ m, Makes request.Allows (visit page) m) :
    Makes request.Allows (forPages visit span.pages) m := by
  rw [forPages_pages]
  apply makes_forM
  intro page member
  exact each page (PageSpan.mem_toList_iff.1 member)

theorem showPage_makes {span : PageSpan .size4K} {page : VirtualAddress} (member : page ∈ span)
    (m : Monitor) : Makes (Request.Allows (.showMappings span)) (showPage page) m := by
  apply makes_bind (makes_lookup _ member fun _ _ => trivial)
  intro found m₁ _
  apply makes_bind (makes_ofExcept _)
  intro row m₂ _
  apply makes_bind (makes_ofExcept _)
  intro text m₃ _
  apply makes_bind (makes_note _ _ trivial)
  intro _ m₄ _
  exact printLine_makes _

theorem showMappings_makes (span : PageSpan .size4K) :
    Makes (Request.Allows (.showMappings span)) (showMappings span) m := by
  apply forPages_makes
  intro page member m
  exact showPage_makes member m

theorem setPagePermission_makes (p : Permission) {span : PageSpan .size4K} {page : VirtualAddress}
    (member : page ∈ span) (m : Monitor) :
    Makes (Request.Allows (.setPermission p span)) (setPagePermission p page) m := by
  apply makes_bind (makes_lookup _ member fun _ _ => trivial)
  intro found m₁ hlookup
  cases found with
  | none =>
    apply makes_bind (makes_note _ _ trivial)
    intro _ m₂ _
    exact printLine_makes _
  | some leaf =>
    obtain ⟨rfl, hwalk⟩ := lookup_eq_ok hlookup
    have stored : Request.Stores (.setPermission p span) (m.record (.lookup page))
        { leaf with entry := p.apply leaf.entry } :=
      ⟨p, span, rfl, page, member, leaf, hwalk, rfl⟩
    apply makes_bind (makes_store _ stored)
    intro _ m₂ _
    apply makes_bind (makes_ofExcept _)
    intro row m₃ _
    apply makes_bind (makes_perform _ member)
    intro _ m₄ _
    apply makes_bind (makes_ofExcept _)
    intro text m₅ _
    apply makes_bind (makes_note _ _ trivial)
    intro _ m₆ _
    exact printLine_makes _

theorem setPermission_makes (p : Permission) (span : PageSpan .size4K) :
    Makes (Request.Allows (.setPermission p span)) (setPermission p span) m := by
  apply forPages_makes
  intro page member m
  exact setPagePermission_makes p member m

/-! ### Memory and stack -/

theorem readIn_makes (view : View) (bytes : ByteSpan) (addr : UInt64) :
    Makes (Request.Allows (.dump view bytes)) (readIn view addr) m := by
  cases view with
  | virtual => exact makes_readByte _ trivial
  | physical =>
    apply makes_bind (makes_ofExcept _)
    intro va m₁ _
    exact makes_readByte va trivial

theorem dumpBytes_makes (view : View) (bytes : ByteSpan) (addr stop : UInt64) (m : Monitor) :
    Makes (Request.Allows (.dump view bytes)) (dumpBytes view addr stop) m := by
  rcases Nat.lt_or_ge addr.toNat stop.toNat with below | beyond
  · rw [dumpBytes_of_lt (UInt64.lt_iff_toNat_lt.2 below)]
    have next := Word.toNat_add_one_of_lt (UInt64.lt_iff_toNat_lt.2 below)
    apply makes_bind (readIn_makes view bytes addr)
    intro byte m₁ _
    apply makes_bind (makes_print _ trivial)
    intro _ m₂ _
    exact dumpBytes_makes view bytes (addr + 1) stop m₂
  · rw [dumpBytes_of_le (UInt64.le_iff_toNat_le.2 beyond)]
    exact makes_pure _
termination_by stop.toNat - addr.toNat
decreasing_by
  rw [next]
  omega

theorem dumpRows_makes (view : View) (bytes : ByteSpan) (row stop : UInt64) (m : Monitor) :
    Makes (Request.Allows (.dump view bytes)) (dumpRows view row stop) m := by
  rcases Nat.lt_or_ge row.toNat stop.toNat with below | beyond
  · rw [dumpRows_of_lt (UInt64.lt_iff_toNat_lt.2 below)]
    have next : (rowStop row stop).toNat = min stop.toNat (row.toNat + 16) := toNat_rowStop
    apply makes_bind (makes_print _ trivial)
    intro _ m₁ _
    apply makes_bind (dumpBytes_makes view bytes row (rowStop row stop) m₁)
    intro _ m₂ _
    apply makes_bind (makes_print _ trivial)
    intro _ m₃ _
    exact dumpRows_makes view bytes (rowStop row stop) stop m₃
  · rw [dumpRows_of_le (UInt64.le_iff_toNat_le.2 beyond)]
    exact makes_pure _
termination_by stop.toNat - row.toNat
decreasing_by
  rw [next]
  omega

theorem readFrame_makes (fp : UInt64) : Makes (Request.Allows .backtrace) (readFrame fp) m := by
  have word (i : Nat) (m : Monitor) : Makes (Request.Allows .backtrace) (readFrameWord fp i) m :=
    makes_readWord _ trivial
  apply makes_bind (makes_mapM fun i _ m => word i m)
  intro arguments m₁ _
  apply makes_bind (word 1 m₁)
  intro returnAddress m₂ _
  apply makes_bind (word 0 m₂)
  intro next m₃ _
  exact makes_pure _

theorem unwind_makes (fp printed : UInt64) (m : Monitor) :
    Makes (Request.Allows .backtrace) (unwind fp printed) m := by
  by_cases zero : fp = 0
  · rw [zero, unwind_zero]
    exact makes_pure _
  · rw [unwind_of_ne_zero zero]
    apply makes_bind makes_get
    intro now m₁ _
    cases now.unwindEnd? fp printed with
    | some line => exact printLine_makes _
    | none =>
      apply makes_bind (readFrame_makes fp)
      intro frame m₂ _
      apply makes_bind makes_get
      intro now m₃ _
      apply makes_bind (makes_print _ trivial)
      intro _ m₄ _
      cases hsucc : Word.add printed 1 with
      | error f => exact makes_throw _
      | ok printed' => exact unwind_makes frame.next printed' m₄
termination_by UInt64.size - printed.toNat
decreasing_by
  have succ := Word.add_eq_ok_iff.1 hsucc
  have bound := printed'.toNat_lt_size
  simp at succ
  omega

theorem backtrace_makes : Makes (Request.Allows .backtrace) backtrace m := by
  apply makes_bind (printLine_makes _)
  intro _ m₁ _
  apply makes_bind makes_get
  intro now m₂ _
  exact unwind_makes _ _ _

/-- Every command keeps to the moves that its request allows, however it ends. -/
theorem execute_makes (request : Request) (m : Monitor) :
    Makes request.Allows (execute request) m := by
  have answered {flow : Flow} {a : Action Unit} (h : Makes request.Allows a m) :
      Makes request.Allows (do a; return flow) m :=
    makes_bind h fun _ _ _ => makes_pure _
  cases request with
  | help => exact answered help_makes
  | kernelInfo => exact answered kernelInfo_makes
  | backtrace => exact answered backtrace_makes
  | shutdown => exact answered shutdown_makes
  | restart => exact answered restart_makes
  | showMappings span => exact answered (showMappings_makes span)
  | setPermission p span => exact answered (setPermission_makes p span)
  | dump view bytes => exact answered (dumpRows_makes view bytes _ _ _)
  | resume on => exact answered (resume_makes on)

end Action

/-! ### Lines and visits -/

/-- The move only tells something to the operator or to the journal. -/
def Move.Tells : Move → Prop
  | .write _ => True
  | .note _ => True
  | _ => False

/-- The move belongs to the reception of the operator. -/
def Move.Receives : Move → Prop
  | .ask _ => True
  | .greeted => True
  | _ => False

/-- The moves that running lines may consist of: telling what happens, and what lines ask for. -/
def Command.LinesAllow (lines : List String) (m : Monitor) (move : Move) : Prop :=
  move.Tells ∨ ∃ text ∈ lines, ∃ request, Asks text request ∧ request.Allows m move

theorem Command.LinesAllow.mono {lines lines' : List String} (sub : lines ⊆ lines') {m : Monitor}
    {move : Move} (h : LinesAllow lines m move) : LinesAllow lines' m move := by
  rcases h with tells | ⟨text, member, request⟩
  · exact .inl tells
  · exact .inr ⟨text, sub member, request⟩

/-- The moves of a visit: those of its lines, prompting, and marking the operator as greeted. -/
def Command.VisitAllows (lines : List String) (m : Monitor) (move : Move) : Prop :=
  move.Receives ∨ LinesAllow lines m move

/-- Whatever a visit does beyond telling and receiving, one of its lines asks for. -/
theorem Command.VisitAllows.exists_request {lines : List String} {m : Monitor} {move : Move}
    (h : VisitAllows lines m move) (received : ¬ move.Receives) (told : ¬ move.Tells) :
    ∃ text ∈ lines, ∃ request, Asks text request ∧ request.Allows m move := by
  rcases h with h | h | h
  · exact absurd h received
  · exact absurd h told
  · exact h

open Monitor (Leads)

theorem Action.interpret_makes (text : String) (m : Monitor) :
    Makes (LinesAllow [text]) (interpret text) m := by
  rw [interpret]
  cases hline : Line.ofString text with
  | error d => exact .refl _
  | ok line =>
    apply makes_bind (makes_pure line)
    intro _ m₁ read
    cases read
    cases hname : line.name? with
    | none => exact makes_pure _
    | some name =>
      dsimp only
      cases hverb : Verb.ofName? name with
      | none => exact makes_fail _
      | some verb =>
        apply makes_bind (makes_note _ _ (.inl trivial))
        intro _ m₂ _
        cases hrequest : Request.ofLine verb line with
        | error d => exact .refl _
        | ok request =>
          have asks : Asks text request := by
            simp only [Asks, Request.ofText, hline, hname, hverb, hrequest, Except.map]
          apply makes_bind (makes_pure request)
          intro _ m₃ read
          cases read
          apply (execute_makes request m₂).mono
          intro m move allowed
          exact .inr ⟨text, List.mem_singleton_self text, request, asks, allowed⟩

namespace Monitor

variable {lines : List String}

theorem report_leads (m : Monitor) (d : Diagnostic) : Leads (LinesAllow lines) m (m.report d) := by
  rw [report]
  cases d.notice? with
  | none => exact .single (.write _) (.inl trivial)
  | some n =>
    apply Leads.step (.note n) (.inl trivial)
    exact .single (.write _) (.inl trivial)

/-- A line does what its request allows and reports, in every state and whatever its ending. -/
theorem runCommand_leads (text : String) (m : Monitor) :
    Leads (LinesAllow [text]) m (m.after (runCommand text)) := by
  have made := Action.interpret_makes text m
  rw [Action.Makes] at made
  cases h : Action.interpret text m with
  | ok flow m' =>
    rw [after_of_ok h] at made
    have ran : m.runCommand text = .ok flow m' := by
      rw [runCommand, h]
    rwa [after_of_ok ran]
  | error halt m' =>
    rw [after_of_error h] at made
    cases halt with
    | diagnostic d =>
      have ran : m.runCommand text = .ok .proceed (m'.report d) := by
        rw [runCommand, h]
      rw [after_of_ok ran]
      exact made.trans (report_leads m' d)
    | fault f =>
      have ran : m.runCommand text = .error f m' := by
        rw [runCommand, h]
      rwa [after_of_error ran]

theorem greet_leads (m : Monitor) : Leads (VisitAllows lines) m m.greet := by
  have shown (m : Monitor) (text : String) :
      Action.Makes (VisitAllows lines) (Action.print text) m :=
    Action.makes_print text (.inr (.inl trivial))
  have made : Action.Makes (VisitAllows lines) greeting m := by
    apply Action.makes_bind Action.makes_get
    intro now m₁ _
    apply Action.makes_bind (shown m₁ _)
    intro _ m₂ _
    refine Action.makes_bind (.single .greeted (.inl trivial)) ?_
    intro _ m₃ _
    apply Action.makes_bind Action.makes_get
    intro now m₄ _
    cases now.context with
    | none => exact Action.makes_pure _
    | some context =>
      dsimp only
      split
      · exact shown m₄ _
      · exact Action.makes_pure _
  rw [Action.Makes] at made
  rw [greet]
  cases h : greeting m with
  | ok _ m' => rwa [after_of_ok h] at made
  | error _ m' => rwa [after_of_error h] at made

/-- Serving a script runs some of its lines, one after another. -/
theorem serve_leads (prompt : String) {script : List (Option String)}
    (sub : ∀ text, some text ∈ script → text ∈ lines) (m : Monitor) :
    Leads (VisitAllows lines) m (serve prompt script m).monitor := by
  have asked (m : Monitor) : Leads (VisitAllows lines) m (m.ask prompt) :=
    .single (.ask prompt) (.inl trivial)
  induction script generalizing m with
  | nil => exact asked m
  | cons read script ih =>
    have rest := ih fun text member => sub text (List.mem_cons_of_mem _ member)
    cases read with
    | none => exact (asked m).trans (rest _)
    | some text =>
      have member : text ∈ lines := sub text List.mem_cons_self
      have ran : Leads (VisitAllows lines) m ((m.ask prompt).after (runCommand text)) := by
        apply (asked m).trans
        apply (runCommand_leads text _).mono
        intro m move allowed
        exact .inr (allowed.mono (List.cons_subset.2 ⟨member, List.nil_subset _⟩))
      rw [serve]
      cases h : runCommand text (m.ask prompt) with
      | ok flow m' =>
        rw [after_of_ok h] at ran
        cases flow with
        | proceed => exact ran.trans (rest m')
        | resume => exact ran
      | error f m' =>
        rw [after_of_error h] at ran
        exact ran

theorem run_leads {script : List (Option String)}
    (sub : ∀ text, some text ∈ script → text ∈ lines) (m : Monitor) :
    Leads (VisitAllows lines) m (m.run script).monitor :=
  (greet_leads m).trans (serve_leads m.prompt sub m.greet)

end Monitor

end DebugMonitor
