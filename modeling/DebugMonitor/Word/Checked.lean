import DebugMonitor.Fault

/-!
# Checked arithmetic on 64-bit words

Addresses are machine words, and a sum that leaves the address space is a fault and not a small
address. `add`, `sub` and `mul` answer the exact result or the fault of their operation; `add?` is
for callers that have an answer of their own for the overflow. The saturating forms stop at the
ends of the range.

The lemmas say when each operation succeeds and what its result is as a natural number.
-/

namespace DebugMonitor.Word

/-- The sum, unless it needs more than 64 bits. -/
def add? (a b : UInt64) : Option UInt64 :=
  if a.toNat + b.toNat < UInt64.size then some (a + b) else none

def add (a b : UInt64) : Except Fault UInt64 :=
  if a.toNat + b.toNat < UInt64.size then .ok (a + b) else .error .addOverflow

def sub (a b : UInt64) : Except Fault UInt64 :=
  if b ≤ a then .ok (a - b) else .error .subOverflow

def mul (a b : UInt64) : Except Fault UInt64 :=
  if a.toNat * b.toNat < UInt64.size then .ok (a * b) else .error .mulOverflow

/-- The sum, or the greatest word where the sum does not fit. -/
def saturatingAdd (a b : UInt64) : UInt64 :=
  (add? a b).getD 0xffffffffffffffff

/-- The difference, or zero where it would be negative. -/
def saturatingSub (a b : UInt64) : UInt64 :=
  if b ≤ a then a - b else 0

variable {a b c : UInt64}

theorem toNat_add_of_lt (h : a.toNat + b.toNat < UInt64.size) : (a + b).toNat = a.toNat + b.toNat := by
  rw [UInt64.toNat_add, Nat.mod_eq_of_lt h]

/-- A word below another one is not the greatest. -/
theorem toNat_add_one_of_lt (h : a < b) : (a + 1).toNat = a.toNat + 1 := by
  have below := UInt64.lt_iff_toNat_lt.1 h
  have bound := b.toNat_lt_size
  exact toNat_add_of_lt (by simp; omega)

theorem add?_eq_some_iff : add? a b = some c ↔ c.toNat = a.toNat + b.toNat := by
  rw [add?]
  split
  · rename_i h
    rw [Option.some.injEq, ← UInt64.toNat_inj, toNat_add_of_lt h, eq_comm]
  · rename_i h
    have := c.toNat_lt_size
    simp only [reduceCtorEq, false_iff]
    omega

theorem add_eq_ok_iff : add a b = .ok c ↔ c.toNat = a.toNat + b.toNat := by
  rw [add]
  split
  · rename_i h
    rw [Except.ok.injEq, ← UInt64.toNat_inj, toNat_add_of_lt h, eq_comm]
  · rename_i h
    have := c.toNat_lt_size
    simp only [reduceCtorEq, false_iff]
    omega

theorem add_eq_error_iff {f : Fault} :
    add a b = .error f ↔ f = .addOverflow ∧ UInt64.size ≤ a.toNat + b.toNat := by
  rw [add]
  split <;> simp_all [eq_comm]

theorem sub_eq_ok_iff : sub a b = .ok c ↔ c.toNat + b.toNat = a.toNat := by
  rw [sub]
  split
  · rename_i h
    have hle : b.toNat ≤ a.toNat := UInt64.le_iff_toNat_le.1 h
    rw [Except.ok.injEq, ← UInt64.toNat_inj, UInt64.toNat_sub_of_le _ _ h]
    omega
  · rename_i h
    have hlt : ¬ b.toNat ≤ a.toNat := fun hle => h (UInt64.le_iff_toNat_le.2 hle)
    simp only [reduceCtorEq, false_iff]
    omega

theorem mul_eq_ok_iff : mul a b = .ok c ↔ c.toNat = a.toNat * b.toNat := by
  rw [mul]
  split
  · rename_i h
    rw [Except.ok.injEq, ← UInt64.toNat_inj, UInt64.toNat_mul, Nat.mod_eq_of_lt h, eq_comm]
  · rename_i h
    have := c.toNat_lt_size
    simp only [reduceCtorEq, false_iff]
    omega

theorem mul_eq_error_iff {f : Fault} :
    mul a b = .error f ↔ f = .mulOverflow ∧ UInt64.size ≤ a.toNat * b.toNat := by
  rw [mul]
  split <;> simp_all [eq_comm]

theorem toNat_saturatingAdd :
    (saturatingAdd a b).toNat = min (a.toNat + b.toNat) (UInt64.size - 1) := by
  rw [saturatingAdd, add?]
  split
  · rename_i h
    rw [Option.getD_some, toNat_add_of_lt h]
    omega
  · rename_i h
    have : (0xffffffffffffffff : UInt64).toNat = UInt64.size - 1 := rfl
    rw [Option.getD_none, this]
    omega

theorem toNat_saturatingSub : (saturatingSub a b).toNat = a.toNat - b.toNat := by
  rw [saturatingSub]
  split
  · rename_i h
    exact UInt64.toNat_sub_of_le _ _ h
  · rename_i h
    have : ¬ b.toNat ≤ a.toNat := fun hle => h (UInt64.le_iff_toNat_le.2 hle)
    simp only [UInt64.toNat_zero]
    omega

end DebugMonitor.Word
