import DebugMonitor.Proofs.Monitor.Dumping
import DebugMonitor.Proofs.Monitor.Editing

/-!
# Commands that cannot fault

Sums of addresses, differences and the count of frames are checked, and each could end a command by a
fault. An action is `Faultless` when from every state that is `Ready` it ends otherwise, in a state
that is ready again. To be ready is to have tables that can be reached and the options of the start:
the bound on frames keeps their count from overflowing.

The operations are faultless, and so is what is joined from faultless parts. `execute_faultless` says
so for every request but two: a restart that comes back is a fault, and a physical dump may leave the
direct map.
-/

namespace DebugMonitor

open Command

/-- What a run needs so that nothing in it faults. -/
structure Monitor.Ready (options : Options) (m : Monitor) : Prop where
  options : m.options = options
  reaches : ∀ va, m.target.Reaches va

namespace Action

open Monitor (Ready)

variable {α β : Type} {o : Options} {m : Monitor}

/-- From every ready state the action ends without a fault, in a ready state. -/
def Faultless (o : Options) (a : Action α) : Prop :=
  ∀ m, Ready o m → (∀ f m', a m ≠ .error (.fault f) m') ∧ Ready o (m.after a)

theorem Faultless.bind {a : Action α} {f : α → Action β} (first : Faultless o a)
    (second : ∀ x, Faultless o (f x)) : Faultless o (a >>= f) := by
  intro m ready
  obtain ⟨returns, ready₁⟩ := first m ready
  cases h : a m with
  | ok x m₁ =>
    rw [Monitor.after_of_ok h] at ready₁
    rw [after_bind_of_ok f h, run_bind f h]
    exact second x m₁ ready₁
  | error halt m₁ =>
    rw [Monitor.after_of_error h] at ready₁
    rw [Monitor.after_of_error (run_bind_of_error f h), run_bind_of_error f h]
    refine ⟨?_, ready₁⟩
    intro fault m' same
    cases same
    exact returns fault _ h

/-- An action that comes to its end in a ready state is faultless. -/
theorem faultless_of_ok {a : Action α}
    (ends : ∀ m, Ready o m → ∃ x m', a m = .ok x m' ∧ Ready o m') : Faultless o a := by
  intro m ready
  obtain ⟨x, m', run, ready'⟩ := ends m ready
  refine ⟨?_, ?_⟩
  · intro f m₁ same
    rw [run] at same
    cases same
  · rw [Monitor.after_of_ok run]
    exact ready'

theorem faultless_pure (x : α) : Faultless o (pure x : Action α) :=
  faultless_of_ok fun m ready => ⟨x, m, rfl, ready⟩

theorem faultless_note (level : Log.Level) (text : String) : Faultless o (note level text) :=
  faultless_of_ok fun _ ready => ⟨(), _, rfl, ready.options, ready.reaches⟩

theorem faultless_perform (e : Effect) : Faultless o (perform e) :=
  faultless_of_ok fun _ ready => ⟨(), _, rfl, ready.options, ready.reaches⟩

theorem faultless_readWord (va : VirtualAddress) : Faultless o (readWord va) :=
  faultless_of_ok fun _ ready => ⟨_, _, rfl, ready.options, ready.reaches⟩

theorem faultless_fail (d : Diagnostic) : Faultless o (fail d : Action α) := by
  intro m ready
  refine ⟨?_, ready⟩
  intro f m' same
  cases same

theorem faultless_print (text : String) : Faultless o (print text) := by
  intro m ready
  obtain ⟨t, shown | failed⟩ := exists_print_eq text m
  · rw [Monitor.after_of_ok shown, shown]
    refine ⟨?_, ready.options, ready.reaches⟩
    intro f m' same
    cases same
  · rw [Monitor.after_of_error failed, failed]
    refine ⟨?_, ready.options, ready.reaches⟩
    intro f m' same
    cases same

theorem faultless_printLine (text : String) : Faultless o (printLine text) :=
  faultless_print _

/-- A table that is reached is looked up in. -/
theorem faultless_lookup (va : VirtualAddress) : Faultless o (lookup va) := by
  apply faultless_of_ok
  intro m ready
  have looked := lookup_eq va m
  rw [(ready.reaches va).walk_eq] at looked
  cases hwalk : m.target.space.walk va with
  | ok leaf =>
    rw [hwalk] at looked
    exact ⟨_, _, looked, ready.options, ready.reaches⟩
  | error gap =>
    rw [hwalk] at looked
    exact ⟨_, _, looked, ready.options, ready.reaches⟩

/-- What looks at the monitor finds it ready. -/
theorem faultless_get_bind {f : Monitor → Action β}
    (each : ∀ now, Ready o now → Faultless o (f now)) : Faultless o (get >>= f) :=
  fun m ready => each m ready m ready

/-- A computation that succeeds goes on with its result. -/
theorem faultless_ofExcept_bind {r : Except Fault α} {x : α} {f : α → Action β} (ok : r = .ok x)
    (next : Faultless o (f x)) : Faultless o (ofExcept r >>= f) := by
  rw [ok]
  exact next

theorem faultless_forM {f : α → Action Unit} {xs : List α} (each : ∀ x ∈ xs, Faultless o (f x)) :
    Faultless o (xs.forM f) := by
  induction xs with
  | nil => exact faultless_pure ()
  | cons x xs ih =>
    apply (each x List.mem_cons_self).bind
    intro _
    exact ih fun y member => each y (List.mem_cons_of_mem _ member)

theorem faultless_mapM {f : α → Action β} {xs : List α} (each : ∀ x, Faultless o (f x)) :
    Faultless o (xs.mapM f) := by
  induction xs with
  | nil => exact faultless_pure []
  | cons x xs ih =>
    rw [List.mapM_cons]
    apply (each x).bind
    intro y
    apply ih.bind
    intro ys
    exact faultless_pure _

/-! ### The commands -/

theorem help_faultless : Faultless o help :=
  faultless_forM fun _ _ => faultless_printLine _

theorem kernelInfo_faultless : Faultless o kernelInfo := by
  apply faultless_get_bind
  intro now _
  apply (faultless_printLine _).bind
  intro _
  apply (faultless_printLine _).bind
  intro _
  apply (faultless_forM fun mark _ => faultless_printLine _).bind
  intro _
  exact faultless_printLine _

theorem shutdown_faultless : Faultless o shutdown := by
  apply (faultless_perform _).bind
  intro _
  apply (faultless_note _ _).bind
  intro _
  exact faultless_printLine _

theorem resume_faultless (on : Bool) : Faultless o (resume on) := by
  apply faultless_get_bind
  intro now _
  cases now.context with
  | none => exact faultless_fail _
  | some context =>
    have stored : Faultless o
        (modify fun m => { m with context := some (context.setSingleStep on) }) :=
      faultless_of_ok fun _ ready => ⟨(), _, rfl, ready.options, ready.reaches⟩
    apply stored.bind
    intro _
    exact faultless_note _ _

theorem forPages_faultless {size : PageSize} {span : PageSpan size}
    {visit : VirtualAddress → Action Unit} (each : ∀ page ∈ span, Faultless o (visit page)) :
    Faultless o (forPages visit span.pages) := by
  rw [forPages_pages]
  exact faultless_forM fun page member => each page (PageSpan.mem_toList_iff.1 member)

/-- The row of a page of a span can be shown: the address after the page exists. -/
theorem showPage_faultless {span : PageSpan .size4K} {page : VirtualAddress} (member : page ∈ span) :
    Faultless o (showPage page) := by
  apply (faultless_lookup page).bind
  intro found
  have made : ∃ mapping, MappingRow.ofLeaf? page found = .ok ⟨page, mapping⟩ := by
    cases found with
    | none => exact ⟨none, rfl⟩
    | some leaf => exact ⟨_, MappingRow.ofLeaf_eq_ok page leaf⟩
  obtain ⟨mapping, made⟩ := made
  apply faultless_ofExcept_bind made
  apply faultless_ofExcept_bind (MappingRow.render_eq_ok (PageSpan.toNat_add_bytes_lt member))
  apply (faultless_note _ _).bind
  intro _
  exact faultless_printLine _

/-- An edit takes no table out of reach. -/
theorem setPagePermission_faultless (p : Permission) {span : PageSpan .size4K}
    {page : VirtualAddress} (member : page ∈ span) : Faultless o (setPagePermission p page) := by
  intro m ready
  obtain ⟨m₁, edited, -, tried⟩ := exists_setPagePermission_eq (p := p) (m := m.withTerminal {})
    rfl (ready.reaches page) (PageSpan.toNat_add_bytes_lt member)
  have ready₁ : Ready o (m₁.withTerminal m.terminal) :=
    ⟨edited.options.trans ready.options, fun va => edited.reaches (ready.reaches va)⟩
  have same : setPagePermission p page m = _ := tried m.terminal
  rw [Monitor.after_eq_of_eq same, same]
  exact faultless_printLine _ _ ready₁

theorem readIn_faultless {view : View} {addr : UInt64} (shown : addr.toNat < view.size) :
    Faultless o (readIn view addr) :=
  faultless_of_ok fun m ready => ⟨_, _, readIn_of_lt shown m, ready.options, ready.reaches⟩

/-- A run of bytes that a view shows is dumped. -/
theorem dumpBytes_faultless {view : View} {addr stop : UInt64} (shown : stop.toNat ≤ view.size) :
    Faultless o (dumpBytes view addr stop) := by
  rcases Nat.lt_or_ge addr.toNat stop.toNat with below | beyond
  · rw [dumpBytes_of_lt (UInt64.lt_iff_toNat_lt.2 below)]
    have next := Word.toNat_add_one_of_lt (UInt64.lt_iff_toNat_lt.2 below)
    apply (readIn_faultless (Nat.lt_of_lt_of_le below shown)).bind
    intro byte
    apply (faultless_print _).bind
    intro _
    exact dumpBytes_faultless shown
  · rw [dumpBytes_of_le (UInt64.le_iff_toNat_le.2 beyond)]
    exact faultless_pure _
termination_by stop.toNat - addr.toNat
decreasing_by
  rw [next]
  omega

theorem dumpRows_faultless {view : View} {row stop : UInt64} (shown : stop.toNat ≤ view.size) :
    Faultless o (dumpRows view row stop) := by
  rcases Nat.lt_or_ge row.toNat stop.toNat with below | beyond
  · rw [dumpRows_of_lt (UInt64.lt_iff_toNat_lt.2 below)]
    have next : (rowStop row stop).toNat = min stop.toNat (row.toNat + 16) := toNat_rowStop
    have shown_row : (rowStop row stop).toNat ≤ view.size := by
      rw [next]
      exact Nat.le_trans (Nat.min_le_left _ _) shown
    apply (faultless_print _).bind
    intro _
    apply (dumpBytes_faultless shown_row).bind
    intro _
    apply (faultless_print _).bind
    intro _
    exact dumpRows_faultless shown
  · rw [dumpRows_of_le (UInt64.le_iff_toNat_le.2 beyond)]
    exact faultless_pure _
termination_by stop.toNat - row.toNat
decreasing_by
  rw [next]
  omega

theorem readFrame_faultless (fp : UInt64) : Faultless o (readFrame fp) := by
  have word (i : Nat) : Faultless o (readFrameWord fp i) := faultless_readWord _
  apply (faultless_mapM word).bind
  intro arguments
  apply (word 1).bind
  intro returnAddress
  apply (word 0).bind
  intro next
  exact faultless_pure _

/-- Frames are counted up to the bound on them, so their count does not overflow. -/
theorem unwind_faultless {fp printed : UInt64} (bounded : printed.toNat ≤ o.maxFrames.toNat) :
    Faultless o (unwind fp printed) := by
  by_cases zero : fp = 0
  · rw [zero, unwind_zero]
    exact faultless_pure _
  · rw [unwind_of_ne_zero zero]
    apply faultless_get_bind
    intro now ready
    cases ends : now.unwindEnd? fp printed with
    | some line => exact faultless_printLine _
    | none =>
      have more : printed ≠ o.maxFrames := by
        rw [← ready.options]
        exact (Monitor.unwindEnd?_eq_none_iff.1 ends).2
      have below : printed.toNat < o.maxFrames.toNat :=
        Nat.lt_of_le_of_ne bounded fun same => more (UInt64.toNat_inj.1 same)
      have bound := o.maxFrames.toNat_lt_size
      have succ : Word.add printed 1 = .ok (printed + 1) :=
        Word.add_eq_ok_iff.2 (Word.toNat_add_of_lt (by simp; omega))
      have next : (printed + 1).toNat = printed.toNat + 1 := Word.add_eq_ok_iff.1 succ
      apply (readFrame_faultless fp).bind
      intro frame
      apply faultless_get_bind
      intro now _
      apply (faultless_print _).bind
      intro _
      simp only [succ]
      exact unwind_faultless (by omega)
termination_by UInt64.size - printed.toNat
decreasing_by
  omega

theorem backtrace_faultless : Faultless o backtrace := by
  apply (faultless_printLine _).bind
  intro _
  apply faultless_get_bind
  intro now _
  exact unwind_faultless (Nat.zero_le _)

/-- No request faults but a restart and a dump that leaves its view. -/
theorem execute_faultless {request : Request} (stays : request ≠ .restart)
    (shown : ∀ view bytes, request = .dump view bytes → bytes.stop.toNat ≤ view.size) :
    Faultless o (execute request) := by
  have answered {flow : Flow} {a : Action Unit} (h : Faultless o a) :
      Faultless o (do a; return flow) :=
    h.bind fun _ => faultless_pure _
  cases request with
  | help => exact answered help_faultless
  | kernelInfo => exact answered kernelInfo_faultless
  | backtrace => exact answered backtrace_faultless
  | shutdown => exact answered shutdown_faultless
  | restart => exact absurd rfl stays
  | showMappings span => exact answered (forPages_faultless fun _ => showPage_faultless)
  | setPermission p span => exact answered (forPages_faultless fun _ => setPagePermission_faultless p)
  | dump view bytes => exact answered (dumpRows_faultless (shown view bytes rfl))
  | resume on => exact answered (resume_faultless on)

end Action

namespace Monitor

variable {text : String} {m : Monitor}

/-- A line whose request cannot fault is answered. -/
theorem exists_runCommand_eq_ok (reached : ∀ va, m.target.Reaches va)
    (stays : ¬ Asks text .restart)
    (shown : ∀ view bytes, Asks text (.dump view bytes) → bytes.stop.toNat ≤ view.size) :
    ∃ flow m', m.runCommand text = .ok flow m' := by
  obtain ⟨journal, read⟩ := Action.exists_interpret_eq text m
  have returns : ∀ f m', Action.interpret text m ≠ .error (.fault f) m' := by
    intro f m' faulted
    rw [read] at faulted
    cases hread : Request.ofText text with
    | error d =>
      rw [hread] at faulted
      cases faulted
    | ok asked =>
      cases asked with
      | none =>
        rw [hread] at faulted
        cases faulted
      | some request =>
        rw [hread] at faulted
        have safe : Action.Faultless m.options (Action.execute request) := by
          apply Action.execute_faultless
          · rintro rfl
            exact stays hread
          · rintro view bytes rfl
            exact shown view bytes hread
        exact (safe { m with journal } ⟨rfl, reached⟩).1 f m' faulted
  rw [runCommand]
  cases h : Action.interpret text m with
  | ok flow m' => exact ⟨flow, m', rfl⟩
  | error halt m' =>
    cases halt with
    | diagnostic d => exact ⟨.proceed, m'.report d, rfl⟩
    | fault f => exact absurd h (returns f m')

/-- A line is answered from every state in which the tables can be reached, on every terminal and
with every options, unless its first word is `restart` or it dumps physical memory. Its words are
counted only where there is one, and the line table of a symbol is read only inside its bounds. -/
theorem runCommand_returns (reached : ∀ va, m.target.Reaches va)
    (stays : (Line.wordsOf text).head? ≠ some "restart")
    (virtual : (Line.wordsOf text).take 2 ≠ ["dump", "P"]) :
    (∃ flow m', m.runCommand text = .ok flow m') ∧
      (∀ line : Line, line.name?.isSome → 1 ≤ line.length) ∧
      ∀ (s : Symbol) (addr : UInt64),
        partitionPoint (fun line => line.1 ≤ addr) s.lines ≤ s.lines.size := by
  refine ⟨exists_runCommand_eq_ok reached ?_ ?_, ?_, fun s addr => partitionPoint_le_size _ _⟩
  · exact fun asks => stays asks.head?
  · intro view bytes asks
    cases view with
    | virtual => exact Nat.le_of_lt bytes.stop.toNat_lt_size
    | physical =>
      obtain ⟨token, rest, words, read⟩ := asks.exists_dump_words
      rw [words, View.ofToken_eq_physical_iff.1 read] at virtual
      exact absurd rfl virtual
  · intro line named
    obtain ⟨text, spans, short⟩ := line
    cases spans with
    | nil => cases named
    | cons first rest => exact Nat.le_add_left 1 rest.length

/-- The last row of the address space is shown, on a terminal that fails in it. -/
theorem runCommand_returns_dump :
    ∃ flow m', ({ terminal := { limit := some ⟨30, false⟩ } } : Monitor).runCommand
      "dump V 0xfffffffffffffff8 0xffffffffffffffff" = .ok flow m' :=
  (runCommand_returns (fun va => Target.reaches_of_physical rfl va) (by decide) (by decide)).1

end Monitor

end DebugMonitor
