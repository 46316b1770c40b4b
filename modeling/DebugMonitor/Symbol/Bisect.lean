/-!
# Bisection

`bisect p base size` looks for the place in `base, …, base + size` where a predicate turns from true
to false, and asks it about logarithmically many positions. The predicate has to be true up to some
place and false from there on; `holds_of_lt_bisect` and `not_holds_of_bisect_le` then say that the
result is that place.
-/

namespace DebugMonitor

def bisect (p : Nat → Bool) (base size : Nat) : Nat :=
  if 1 < size then
    let half := size / 2
    bisect p (if p (base + half) then base + half else base) (size - half)
  else if size = 1 ∧ p base then
    base + 1
  else
    base
termination_by size

/-- The number of elements in front of the first one that fails `p`, where all later ones fail. -/
def partitionPoint {α : Type} (p : α → Bool) (xs : Array α) : Nat :=
  bisect (fun i => xs[i]?.any p) 0 xs.size

/-- A predicate that, once false, stays false. -/
def TurnsOnce (p : Nat → Bool) : Prop :=
  ∀ i j, i ≤ j → p j = true → p i = true

variable {p : Nat → Bool} {base size i : Nat}

private theorem bisect_bounds (hp : TurnsOnce p) (base size : Nat)
    (hlow : ∀ i, i < base → p i = true) (hhigh : ∀ i, base + size ≤ i → p i = false) :
    (∀ i, i < bisect p base size → p i = true) ∧
      ∀ i, bisect p base size ≤ i → p i = false := by
  -- the search keeps a window with true before it and false behind it
  fun_induction bisect p base size with
  | case1 base size hsize half ih =>
    have hhalf : half = size / 2 := rfl
    cases hmid : p (base + half) with
    | true =>
      simp only [hmid, if_true, dite_true] at ih ⊢
      refine ih (fun i hi => hp i _ (Nat.le_of_lt hi) hmid) fun i hi => hhigh i (by omega)
    | false =>
      simp only [hmid, Bool.false_eq_true, if_false, dite_false] at ih ⊢
      refine ih hlow fun i hi => ?_
      cases hpi : p i with
      | false => rfl
      | true => exact absurd (hp (base + half) i (by omega) hpi) (by simp [hmid])
  | case2 base size hsize h =>
    refine ⟨fun i hi => ?_, fun i hi => hhigh i (by omega)⟩
    by_cases hb : i < base
    · exact hlow i hb
    · rw [show i = base by omega]
      exact h.2
  | case3 base size hsize h =>
    refine ⟨hlow, fun i hi => ?_⟩
    by_cases hz : size = 1
    · cases hpi : p i with
      | false => rfl
      | true => exact absurd ⟨hz, hp base i hi hpi⟩ h
    · exact hhigh i (by omega)

/-- The search stays inside its window, whatever the predicate. -/
theorem bisect_le (p : Nat → Bool) (base size : Nat) : bisect p base size ≤ base + size := by
  fun_induction bisect p base size with
  | case1 base size hsize half ih =>
    have hhalf : half = size / 2 := rfl
    cases hmid : p (base + half) with
    | true =>
      simp only [hmid, if_true, dite_true] at ih ⊢
      omega
    | false =>
      simp only [hmid, Bool.false_eq_true, if_false, dite_false] at ih ⊢
      omega
  | case2 base size hsize h => omega
  | case3 base size hsize h => omega

theorem partitionPoint_le_size {α : Type} (p : α → Bool) (xs : Array α) :
    partitionPoint p xs ≤ xs.size :=
  Nat.le_trans (bisect_le _ 0 xs.size) (Nat.le_of_eq (Nat.zero_add _))

theorem holds_of_lt_bisect (hp : TurnsOnce p) (hhigh : ∀ i, size ≤ i → p i = false)
    (hi : i < bisect p 0 size) : p i = true :=
  (bisect_bounds hp 0 size (fun _ h => absurd h (Nat.not_lt_zero _))
    (by simpa using hhigh)).1 i hi

theorem not_holds_of_bisect_le (hp : TurnsOnce p) (hhigh : ∀ i, size ≤ i → p i = false)
    (hi : bisect p 0 size ≤ i) : p i = false :=
  (bisect_bounds hp 0 size (fun _ h => absurd h (Nat.not_lt_zero _))
    (by simpa using hhigh)).2 i hi

end DebugMonitor
