import DebugMonitor.Fault

/-!
# Bit fields of 64-bit words

Control registers, flag words and page-table entries pack several values into one word. A `Field`
names the bits of one such value: reading shifts it down, writing replaces its bits and keeps every
other bit of the word. A value that needs more bits than the field has is a fault, and nothing is
written. A single bit is read and written as a truth value, which always fits.

The lemmas describe both through the bits of the word, so that what a write leaves alone can be
read off `testBit_set` and `testBit_setFlag`.
-/

namespace DebugMonitor.Word

/-- Bit `i` of a word, counted from the least significant; beyond bit 63 all bits are clear. -/
def testBit (w : UInt64) (i : Nat) : Bool :=
  w.toBitVec.getLsbD i

/-- Replaces bit `i` by `on`. -/
def setFlag (w : UInt64) (i : Nat) (on : Bool) : UInt64 :=
  .ofBitVec (if on then w.toBitVec ||| .twoPow 64 i else w.toBitVec &&& ~~~.twoPow 64 i)

/-- A run of `width` bits that starts at bit `offset`. -/
structure Field where
  offset : Nat
  width : Nat
  fits : offset + width ≤ 64 := by decide

namespace Field

/-- The greatest value the field can hold. -/
def max (f : Field) : Nat := (BitVec.allOnes f.width).toNat

/-- The word with the bits of the field set and no others. -/
def mask (f : Field) : BitVec 64 := (BitVec.allOnes f.width).setWidth 64 <<< f.offset

def get (f : Field) (w : UInt64) : UInt64 :=
  .ofBitVec ((w.toBitVec.extractLsb' f.offset f.width).setWidth 64)

/-- Stores `v` in the field, or fails if `v` does not fit. -/
def set (f : Field) (w v : UInt64) : Except Fault UInt64 :=
  if v.toNat ≤ f.max then
    .ok (.ofBitVec ((w.toBitVec &&& ~~~f.mask) ||| (v.toBitVec <<< f.offset)))
  else
    .error (.valueOutOfBounds f.max)

end Field

/-! ### Bits of the results -/

theorem eq_of_testBit_eq {w v : UInt64} (h : ∀ i, testBit w i = testBit v i) : w = v :=
  UInt64.toBitVec_inj.1 (BitVec.eq_of_getLsbD_eq fun i _ => h i)

theorem testBit_of_le {w : UInt64} {i : Nat} (h : 64 ≤ i) : testBit w i = false :=
  BitVec.getLsbD_of_ge _ _ h

theorem testBit_setFlag {w : UInt64} {i j : Nat} {on : Bool} (hi : i < 64) :
    testBit (setFlag w i on) j = if i = j then on else testBit w j := by
  unfold testBit setFlag
  cases on with
  | false =>
    simp only [Bool.false_eq_true, if_false, BitVec.getLsbD_and, BitVec.getLsbD_not,
      BitVec.getLsbD_twoPow, hi, decide_true, Bool.true_and]
    by_cases h : i = j
    · simp only [h, decide_true, Bool.not_true, Bool.and_false, if_true]
    · by_cases hj : j < 64
      · simp only [h, hj, decide_true, decide_false, Bool.not_false, Bool.and_true, if_false]
      · simp only [h, if_false, BitVec.getLsbD_of_ge _ _ (Nat.not_lt.1 hj), Bool.false_and]
  | true =>
    simp only [if_true, BitVec.getLsbD_or, BitVec.getLsbD_twoPow, hi, decide_true, Bool.true_and]
    by_cases h : i = j
    · simp only [h, decide_true, Bool.or_true, if_true]
    · simp only [h, decide_false, Bool.or_false, if_false]

@[simp] theorem testBit_setFlag_self {w : UInt64} {i : Nat} {on : Bool} (hi : i < 64) :
    testBit (setFlag w i on) i = on := by
  simp [testBit_setFlag hi]

namespace Field

variable {f : Field} {w v r : UInt64} {i : Nat}

theorem getLsbD_mask :
    f.mask.getLsbD i = decide (f.offset ≤ i ∧ i < f.offset + f.width) := by
  have := f.fits
  rw [mask, BitVec.getLsbD_shiftLeft, BitVec.getLsbD_setWidth, BitVec.getLsbD_allOnes]
  by_cases h : f.offset ≤ i ∧ i < f.offset + f.width
  · have h₁ : i < 64 := by omega
    have h₂ : i - f.offset < 64 := by omega
    have h₃ : i - f.offset < f.width := by omega
    have h₄ : ¬ i < f.offset := by omega
    simp only [h, h₁, h₂, h₃, h₄, and_self, decide_true, decide_false, Bool.not_false,
      Bool.and_self]
  · rw [decide_eq_false h]
    by_cases h₁ : i < f.offset
    · simp only [h₁, decide_true, Bool.not_true, Bool.and_false, Bool.false_and]
    · have h₂ : ¬ i - f.offset < f.width := by omega
      simp only [h₂, decide_false, Bool.and_false]

theorem testBit_get :
    testBit (f.get w) i = (decide (i < f.width) && testBit w (f.offset + i)) := by
  have := f.fits
  rw [testBit, get, UInt64.toBitVec_ofBitVec, BitVec.getLsbD_setWidth, BitVec.getLsbD_extractLsb',
    ← testBit]
  by_cases h : i < f.width
  · have : i < 64 := by omega
    simp only [h, this, decide_true, Bool.true_and]
  · simp only [h, decide_false, Bool.false_and, Bool.and_false]

/-- A value that fits has no bits beyond the width of the field. -/
theorem testBit_of_toNat_le_max (h : v.toNat ≤ f.max) (hi : f.width ≤ i) : testBit v i = false := by
  have hpos : 0 < 2 ^ f.width := Nat.two_pow_pos _
  rw [max, BitVec.toNat_allOnes] at h
  rw [testBit, BitVec.getLsbD, UInt64.toNat_toBitVec]
  refine Nat.testBit_lt_two_pow (Nat.lt_of_lt_of_le ?_ (Nat.pow_le_pow_right (by decide) hi))
  omega

/-- Writing succeeds exactly for the values that fit. -/
theorem exists_set_eq_ok_iff : (∃ r, f.set w v = .ok r) ↔ v.toNat ≤ f.max := by
  rw [set]
  split <;> simp_all

theorem set_eq_error (h : f.max < v.toNat) : f.set w v = .error (.valueOutOfBounds f.max) :=
  if_neg (Nat.not_le.2 h)

/-- A write puts the low bits of `v` into the field and keeps every other bit of the word. -/
theorem testBit_set (h : f.set w v = .ok r) :
    testBit r i =
      if f.offset ≤ i ∧ i < f.offset + f.width then testBit v (i - f.offset) else testBit w i := by
  have hf := f.fits
  rw [set] at h
  split at h
  · rename_i hv
    cases h
    simp only [testBit, BitVec.getLsbD_or, BitVec.getLsbD_and, BitVec.getLsbD_not,
      BitVec.getLsbD_shiftLeft, getLsbD_mask]
    by_cases hin : f.offset ≤ i ∧ i < f.offset + f.width
    · have hi : i < 64 := by omega
      have hno : ¬ i < f.offset := by omega
      simp only [hin, hi, hno, and_self, decide_true, decide_false, Bool.not_true, Bool.not_false,
        Bool.and_false, Bool.true_and, Bool.false_or, if_true]
    · have hzero : (decide (i < 64) && !decide (i < f.offset) &&
          v.toBitVec.getLsbD (i - f.offset)) = false := by
        by_cases hlo : i < f.offset
        · simp only [hlo, decide_true, Bool.not_true, Bool.and_false, Bool.false_and]
        · have : testBit v (i - f.offset) = false := testBit_of_toNat_le_max hv (by omega)
          rw [← testBit, this, Bool.and_false]
      rw [hzero, Bool.or_false, if_neg hin, decide_eq_false hin]
      by_cases hi : i < 64
      · simp only [hi, decide_true, Bool.not_false, Bool.and_true]
      · rw [BitVec.getLsbD_of_ge _ _ (Nat.not_lt.1 hi), Bool.false_and]
  · cases h

/-- A field reads back what was written. -/
theorem get_of_set_eq_ok (h : f.set w v = .ok r) : f.get r = v := by
  have hv : v.toNat ≤ f.max := exists_set_eq_ok_iff.1 ⟨r, h⟩
  refine eq_of_testBit_eq fun i => ?_
  rw [testBit_get, testBit_set h]
  by_cases hi : i < f.width
  · have hin : f.offset ≤ f.offset + i ∧ f.offset + i < f.offset + f.width := by omega
    rw [if_pos hin, Nat.add_sub_cancel_left, decide_eq_true hi, Bool.true_and]
  · rw [decide_eq_false hi, Bool.false_and, testBit_of_toNat_le_max hv (Nat.not_lt.1 hi)]

end Field

end DebugMonitor.Word
