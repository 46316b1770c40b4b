import DebugMonitor.Proofs.Monitor.Conduct

/-!
# How commands are put together

Commands are put together from a few operations, and no command looks at its terminal or its journal:
it only adds to them. `Composed` says so of an action, and `execute_composed` of every request but the
two that resume, which print nothing. A property that the operations have, and that is kept when one
action follows another, is a property of the commands by induction on this predicate.
-/

namespace DebugMonitor.Action

open Command (View Request)

variable {α β : Type}

/-- The action is put together from the operations, without a look at the terminal or the journal. -/
inductive Composed : {α : Type} → Action α → Prop where
  | pure {α : Type} (x : α) : Composed (pure x)
  | fault {α : Type} (f : Fault) : Composed (throw (.fault f) : Action α)
  | print (text : String) : Composed (print text)
  | note (level : Log.Level) (text : String) : Composed (note level text)
  | perform (e : Effect) : Composed (perform e)
  | store (leaf : Paging.Leaf) : Composed (store leaf)
  | look {β : Type} {f : Monitor → Action β} :
      (∀ m terminal journal, f { m with terminal, journal } = f m) → (∀ m, Composed (f m)) →
      Composed (get >>= f)
  | bind {α β : Type} {a : Action α} {f : α → Action β} :
      Composed a → (∀ x, Composed (f x)) → Composed (a >>= f)

theorem composed_ofExcept (r : Except Fault α) : Composed (ofExcept r) := by
  cases r with
  | ok x => exact .pure x
  | error f => exact .fault f

theorem composed_printLine (text : String) : Composed (printLine text) :=
  .print _

theorem composed_readByte (va : VirtualAddress) : Composed (readByte va) :=
  .bind (.perform _) fun _ => .look (fun _ _ _ => rfl) fun _ => .pure _

theorem composed_readWord (va : VirtualAddress) : Composed (readWord va) :=
  .bind (.perform _) fun _ => .look (fun _ _ _ => rfl) fun _ => .pure _

theorem composed_lookup (va : VirtualAddress) : Composed (lookup va) := by
  refine .bind (.perform _) fun _ => .look (fun _ _ _ => rfl) fun m => ?_
  refine .bind (composed_ofExcept _) fun found => ?_
  cases found with
  | ok leaf => exact .pure _
  | error gap => exact .bind (.note _ _) fun _ => .pure _

theorem composed_forM {f : α → Action Unit} {xs : List α} (each : ∀ x, Composed (f x)) :
    Composed (xs.forM f) := by
  induction xs with
  | nil => exact .pure ()
  | cons x xs ih => exact .bind (each x) fun _ => ih

theorem composed_mapM {f : α → Action β} {xs : List α} (each : ∀ x, Composed (f x)) :
    Composed (xs.mapM f) := by
  induction xs with
  | nil => exact .pure []
  | cons x xs ih =>
    rw [List.mapM_cons]
    exact .bind (each x) fun y => .bind ih fun ys => .pure _

/-! ### The commands -/

theorem help_composed : Composed help :=
  composed_forM fun _ => composed_printLine _

theorem kernelInfo_composed : Composed kernelInfo := by
  refine .look (fun _ _ _ => rfl) fun m => .bind (composed_printLine _) fun _ => ?_
  refine .bind (composed_printLine _) fun _ => ?_
  exact .bind (composed_forM fun mark => composed_printLine _) fun _ => composed_printLine _

theorem shutdown_composed : Composed shutdown :=
  .bind (.perform _) fun _ => .bind (.note _ _) fun _ => composed_printLine _

theorem restart_composed : Composed restart :=
  .bind (.perform _) fun _ => .bind (.note _ _) fun _ => .fault _

theorem forPages_composed {size : PageSize} {span : PageSpan size}
    {visit : VirtualAddress → Action Unit} (each : ∀ page, Composed (visit page)) :
    Composed (forPages visit span.pages) := by
  rw [forPages_pages]
  exact composed_forM each

theorem showPage_composed (page : VirtualAddress) : Composed (showPage page) := by
  refine .bind (composed_lookup page) fun found => .bind (composed_ofExcept _) fun row => ?_
  refine .bind (composed_ofExcept _) fun text => .bind (.note _ _) fun _ => ?_
  exact composed_printLine _

theorem setPagePermission_composed (p : Command.Permission) (page : VirtualAddress) :
    Composed (setPagePermission p page) := by
  refine .bind (composed_lookup page) fun found => ?_
  cases found with
  | none => exact .bind (.note _ _) fun _ => composed_printLine _
  | some leaf =>
    refine .bind (.store _) fun _ => .bind (composed_ofExcept _) fun row => ?_
    refine .bind (.perform _) fun _ => .bind (composed_ofExcept _) fun text => ?_
    exact .bind (.note _ _) fun _ => composed_printLine _

theorem readIn_composed (view : View) (addr : UInt64) : Composed (readIn view addr) := by
  cases view with
  | virtual => exact composed_readByte _
  | physical => exact .bind (composed_ofExcept _) fun va => composed_readByte va

theorem dumpBytes_composed (view : View) (addr stop : UInt64) :
    Composed (dumpBytes view addr stop) := by
  rcases Nat.lt_or_ge addr.toNat stop.toNat with below | beyond
  · rw [dumpBytes_of_lt (UInt64.lt_iff_toNat_lt.2 below)]
    have next := Word.toNat_add_one_of_lt (UInt64.lt_iff_toNat_lt.2 below)
    refine .bind (readIn_composed view addr) fun byte => .bind (.print _) fun _ => ?_
    exact dumpBytes_composed view (addr + 1) stop
  · rw [dumpBytes_of_le (UInt64.le_iff_toNat_le.2 beyond)]
    exact .pure _
termination_by stop.toNat - addr.toNat
decreasing_by
  rw [next]
  omega

theorem dumpRows_composed (view : View) (row stop : UInt64) : Composed (dumpRows view row stop) := by
  rcases Nat.lt_or_ge row.toNat stop.toNat with below | beyond
  · rw [dumpRows_of_lt (UInt64.lt_iff_toNat_lt.2 below)]
    have next : (rowStop row stop).toNat = min stop.toNat (row.toNat + 16) := toNat_rowStop
    refine .bind (.print _) fun _ => .bind (dumpBytes_composed view row (rowStop row stop)) fun _ => ?_
    exact .bind (.print _) fun _ => dumpRows_composed view (rowStop row stop) stop
  · rw [dumpRows_of_le (UInt64.le_iff_toNat_le.2 beyond)]
    exact .pure _
termination_by stop.toNat - row.toNat
decreasing_by
  rw [next]
  omega

theorem readFrame_composed (fp : UInt64) : Composed (readFrame fp) := by
  have word (i : Nat) : Composed (readFrameWord fp i) := composed_readWord _
  refine .bind (composed_mapM word) fun arguments => .bind (word 1) fun returnAddress => ?_
  exact .bind (word 0) fun next => .pure _

theorem unwind_composed (fp printed : UInt64) : Composed (unwind fp printed) := by
  by_cases zero : fp = 0
  · rw [zero, unwind_zero]
    exact .pure _
  · rw [unwind_of_ne_zero zero]
    refine .look (fun _ _ _ => rfl) fun m => ?_
    cases m.unwindEnd? fp printed with
    | some line => exact composed_printLine _
    | none =>
      refine .bind (readFrame_composed fp) fun frame => .look (fun _ _ _ => rfl) fun m => ?_
      refine .bind (.print _) fun _ => ?_
      cases hsucc : Word.add printed 1 with
      | error f => exact .fault f
      | ok printed' => exact unwind_composed frame.next printed'
termination_by UInt64.size - printed.toNat
decreasing_by
  have succ := Word.add_eq_ok_iff.1 hsucc
  have bound := printed'.toNat_lt_size
  simp at succ
  omega

theorem backtrace_composed : Composed backtrace :=
  .bind (composed_printLine _) fun _ => .look (fun _ _ _ => rfl) fun _ => unwind_composed _ _

/-- Every request is put together from the operations, unless it resumes the context. -/
theorem execute_composed (request : Request) (stays : ∀ on, request ≠ .resume on) :
    Composed (execute request) := by
  have answered {flow : Flow} {a : Action Unit} (h : Composed a) : Composed (do a; return flow) :=
    .bind h fun _ => .pure _
  cases request with
  | help => exact answered help_composed
  | kernelInfo => exact answered kernelInfo_composed
  | backtrace => exact answered backtrace_composed
  | shutdown => exact answered shutdown_composed
  | restart => exact answered restart_composed
  | showMappings span => exact answered (forPages_composed showPage_composed)
  | setPermission p span => exact answered (forPages_composed (setPagePermission_composed p))
  | dump view bytes => exact answered (dumpRows_composed view _ _)
  | resume on => exact absurd rfl (stays on)

end DebugMonitor.Action
