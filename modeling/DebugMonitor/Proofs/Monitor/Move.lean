import DebugMonitor.Monitor.Action

/-!
# Moves

The monitor changes by a few moves: it writes to the terminal or prompts there, adds a notice, does
something to the target that the trace records, writes a leaf back, replaces the context, or marks
the operator as greeted. `Leads allowed` relates two states when moves of an allowed kind lead from
one to the other; which moves are allowed may depend on the state they are made in.

`Makes allowed a m` says that the action makes allowed moves only when it is run from `m`, however
it ends. What a command can do is said once in this way, and every invariant of the monitor is then
shown by looking at one move: see `Leads.preserves`.
-/

namespace DebugMonitor

inductive Move where
  | write (text : String)
  | ask (prompt : String)
  | note (n : Log.Notice)
  | perform (e : Effect)
  | store (leaf : Paging.Leaf)
  | context (c : Cpu.Context)
  | greeted

def Move.apply (m : Monitor) : Move → Monitor
  | write text => { m with terminal := (m.terminal.write text).2 }
  | ask prompt => { m with terminal := m.terminal.ask prompt }
  | note n => m.note n
  | perform e => m.record e
  | store leaf => { m with target := { m.target with space := m.target.space.store leaf } }
  | context c => { m with context := some c }
  | greeted => { m with greeted := true }

namespace Monitor

/-- The state in which a run from `m` ends, with an answer or without. -/
def after {ε α : Type} (m : Monitor) (a : EStateM ε Monitor α) : Monitor :=
  match a m with
  | .ok _ m' => m'
  | .error _ m' => m'

section

variable {ε α : Type} {m m' : Monitor} {a : EStateM ε Monitor α}

theorem after_of_ok {x : α} (h : a m = .ok x m') : m.after a = m' := by
  rw [after, h]

theorem after_of_error {e : ε} (h : a m = .error e m') : m.after a = m' := by
  rw [after, h]

end

/-- Runs that end alike end in the same state. -/
theorem after_eq_of_eq {ε α : Type} {m m₁ : Monitor} {a b : EStateM ε Monitor α}
    (same : a m = b m₁) : m.after a = m₁.after b := by
  rw [after, after, same]

/-- Allowed moves lead from one state to the other. -/
inductive Leads (allowed : Monitor → Move → Prop) : Monitor → Monitor → Prop where
  | refl (m : Monitor) : Leads allowed m m
  | step {m m' : Monitor} (move : Move) :
      allowed m move → Leads allowed (move.apply m) m' → Leads allowed m m'

namespace Leads

variable {allowed allowed' : Monitor → Move → Prop} {m₁ m₂ m₃ : Monitor}

theorem single (move : Move) (h : allowed m₁ move) : Leads allowed m₁ (move.apply m₁) :=
  .step move h (.refl _)

theorem trans (h₁ : Leads allowed m₁ m₂) (h₂ : Leads allowed m₂ m₃) : Leads allowed m₁ m₃ := by
  induction h₁ with
  | refl => exact h₂
  | step move h _ ih => exact .step move h (ih h₂)

theorem mono (h : Leads allowed m₁ m₂) (imp : ∀ m move, allowed m move → allowed' m move) :
    Leads allowed' m₁ m₂ := by
  induction h with
  | refl => exact .refl _
  | step move h _ ih => exact .step move (imp _ _ h) ih

/-- What every allowed move preserves, a whole run preserves. -/
theorem preserves {R : Monitor → Monitor → Prop} (h : Leads allowed m₁ m₂) (refl : ∀ m, R m m)
    (trans : ∀ {a b c}, R a b → R b c → R a c)
    (move : ∀ m move, allowed m move → R m (move.apply m)) : R m₁ m₂ := by
  induction h with
  | refl => exact refl _
  | step step h _ ih => exact trans (move _ step h) ih

/-- What no allowed move changes is the same after a run. -/
theorem keeps {β : Type} {f : Monitor → β} (h : Leads allowed m₁ m₂)
    (move : ∀ m move, allowed m move → f (move.apply m) = f m) : f m₂ = f m₁ :=
  h.preserves (R := fun a b => f b = f a) (fun _ => rfl) (fun h₁ h₂ => h₂.trans h₁) move

end Leads

end Monitor

namespace Action

open Monitor (Leads)

variable {α β : Type} {allowed : Monitor → Move → Prop} {m m₁ : Monitor}

/-- An action that comes to its end hands its answer and its state to the next one. -/
theorem run_bind {a : Action α} {x : α} (f : α → Action β) (first : a m = .ok x m₁) :
    (a >>= f) m = f x m₁ := by
  simp only [bind, EStateM.bind, first]

theorem run_get_bind (f : Monitor → Action β) (m : Monitor) : (get >>= f) m = f m m := rfl

/-- An action that is cut short cuts short what would follow. -/
theorem run_bind_of_error {a : Action α} {e : Halt} (f : α → Action β)
    (first : a m = .error e m₁) : (a >>= f) m = .error e m₁ := by
  simp only [bind, EStateM.bind, first]

/-- What follows an action depends on nothing but how its run ended. -/
theorem bind_eq_of_eq {a b : Action α} (f : α → Action β) (same : a m = b m₁) :
    (a >>= f) m = (b >>= f) m₁ := by
  simp only [bind, EStateM.bind, same]

theorem after_bind_of_ok {a : Action α} {x : α} (f : α → Action β) (first : a m = .ok x m₁) :
    m.after (a >>= f) = m₁.after (f x) := by
  rw [Monitor.after, run_bind f first]
  rfl

/-- Giving an answer changes nothing. -/
theorem after_bind_pure {a : Action α} (x : β) : m.after (do let _ ← a; return x) = m.after a := by
  simp only [Monitor.after, bind, EStateM.bind]
  cases a m <;> rfl

/-- A run of the action from `m` consists of allowed moves. -/
def Makes (allowed : Monitor → Move → Prop) (a : Action α) (m : Monitor) : Prop :=
  Leads allowed m (m.after a)

theorem makes_pure (x : α) : Makes allowed (pure x : Action α) m := .refl _

theorem makes_throw (h : Halt) : Makes allowed (throw h : Action α) m := .refl _

theorem makes_fail (d : Command.Diagnostic) : Makes allowed (fail d : Action α) m := .refl _

theorem makes_get : Makes allowed (get : Action Monitor) m := .refl _

theorem makes_ofExcept (r : Except Fault α) : Makes allowed (ofExcept r) m := by
  cases r <;> exact .refl _

/-- The second action starts where the first one ended, and with its answer. -/
theorem makes_bind {a : Action α} {f : α → Action β} (first : Makes allowed a m)
    (second : ∀ x m', a m = .ok x m' → Makes allowed (f x) m') : Makes allowed (a >>= f) m := by
  rw [Makes] at first ⊢
  cases h : a m with
  | ok x m₁ =>
    rw [Monitor.after_of_ok h] at first
    rw [after_bind_of_ok f h]
    exact first.trans (second x m₁ h)
  | error e m₁ =>
    rw [Monitor.after_of_error h] at first
    rw [Monitor.after_of_error (run_bind_of_error f h)]
    exact first

theorem makes_forM {f : α → Action Unit} {xs : List α}
    (each : ∀ x ∈ xs, ∀ m, Makes allowed (f x) m) : Makes allowed (xs.forM f) m := by
  induction xs generalizing m with
  | nil => exact .refl _
  | cons x xs ih =>
    apply makes_bind (each x List.mem_cons_self m)
    intro _ m₁ _
    exact ih fun y member => each y (List.mem_cons_of_mem _ member)

theorem makes_mapM {f : α → Action β} {xs : List α}
    (each : ∀ x ∈ xs, ∀ m, Makes allowed (f x) m) : Makes allowed (xs.mapM f) m := by
  induction xs generalizing m with
  | nil => exact makes_pure _
  | cons x xs ih =>
    rw [List.mapM_cons]
    apply makes_bind (each x List.mem_cons_self m)
    intro y m₁ _
    apply makes_bind (ih fun x' member => each x' (List.mem_cons_of_mem _ member))
    intro ys m₂ _
    exact makes_pure _

theorem after_print (m : Monitor) (text : String) :
    m.after (print text) = { m with terminal := (m.terminal.write text).2 } := by
  rw [Monitor.after, print]
  cases m.terminal.write text with
  | mk shown terminal => cases shown <;> rfl

theorem makes_print (text : String) (h : allowed m (.write text)) :
    Makes allowed (print text) m := by
  rw [Makes, after_print]
  exact .single (.write text) h

theorem makes_note (level : Log.Level) (text : String) (h : allowed m (.note ⟨level, text⟩)) :
    Makes allowed (note level text) m :=
  .single _ h

theorem makes_perform (e : Effect) (h : allowed m (.perform e)) :
    Makes allowed (perform e) m :=
  .single _ h

theorem makes_store (leaf : Paging.Leaf) (h : allowed m (.store leaf)) :
    Makes allowed (store leaf) m :=
  .single _ h

theorem makes_readByte (va : VirtualAddress) (h : allowed m (.perform (.readByte va))) :
    Makes allowed (readByte va) m :=
  .single _ h

theorem makes_readWord (va : VirtualAddress) (h : allowed m (.perform (.readWord va))) :
    Makes allowed (readWord va) m :=
  .single _ h

theorem makes_lookup (va : VirtualAddress) (h : allowed m (.perform (.lookup va)))
    (notes : ∀ m n, allowed m (.note n)) : Makes allowed (lookup va) m := by
  apply makes_bind (makes_perform _ h)
  intro _ m₁ _
  apply makes_bind makes_get
  intro now m₂ _
  apply makes_bind (makes_ofExcept _)
  intro found m₃ _
  cases found with
  | ok leaf => exact makes_pure _
  | error gap =>
    refine makes_bind (.single (.note _) (notes _ _)) ?_
    intro _ m₄ _
    exact makes_pure _

/-- A lookup in full: what it answers, and the mark it leaves. -/
theorem lookup_eq (va : VirtualAddress) (m : Monitor) :
    lookup va m = match m.target.walk va with
      | .error f => .error (.fault f) (m.record (.lookup va))
      | .ok (.ok leaf) => .ok (some leaf) (m.record (.lookup va))
      | .ok (.error gap) => .ok none ((m.record (.lookup va)).note (gap.notice va)) := by
  change (ofExcept (m.target.walk va) >>= _) (m.record (.lookup va)) = _
  cases m.target.walk va with
  | error f => rfl
  | ok found => cases found <;> rfl

/-- A leaf is looked up in the tables as they are, and the target stays as it is. -/
theorem lookup_eq_ok {va : VirtualAddress} {leaf : Paging.Leaf} {m' : Monitor}
    (h : lookup va m = .ok (some leaf) m') :
    m' = m.record (.lookup va) ∧ m.target.space.walk va = .ok leaf := by
  rw [lookup_eq] at h
  split at h
  · cases h
  · rename_i hwalk
    cases h
    exact ⟨rfl, (Target.walk_eq_ok_iff.1 hwalk).2⟩
  · cases h

end Action

end DebugMonitor
