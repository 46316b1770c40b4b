import DebugMonitor.Address
import DebugMonitor.Word.Field
import Mathlib.Algebra.Group.Nat.Defs

/-!
# Bits of words and addresses

`bitRange` is the number that a run of bits holds, as in the pictures of a data sheet. The lemmas
here read the bits of sums, masks and remainders. Two words without a common bit are added bit by
bit (`add_eq_or_of_testBit`), which is how an offset joins the start of its page.
-/

namespace DebugMonitor

namespace Word

/-- The number in `width` bits of a word, from bit `low` up. -/
def bitRange (w : UInt64) (low width : Nat) : Nat :=
  w.toNat / 2 ^ low % 2 ^ width

theorem testBit_eq (w : UInt64) (i : Nat) : testBit w i = w.toNat.testBit i := rfl

/-- Reading a field gives the number in its bits. -/
theorem Field.toNat_get (f : Field) (w : UInt64) :
    (f.get w).toNat = bitRange w f.offset f.width := by
  have covered : f.width ≤ 64 := Nat.le_trans (Nat.le_add_left _ _) f.fits
  rw [get, UInt64.toNat_ofBitVec, BitVec.toNat_setWidth_of_le covered, BitVec.extractLsb'_toNat,
    Nat.shiftRight_eq_div_pow]
  rfl

@[simp] theorem testBit_and (a b : UInt64) (i : Nat) :
    testBit (a &&& b) i = (testBit a i && testBit b i) := by
  simp only [testBit_eq, UInt64.toNat_and, Nat.testBit_and]

@[simp] theorem testBit_or (a b : UInt64) (i : Nat) :
    testBit (a ||| b) i = (testBit a i || testBit b i) := by
  simp only [testBit_eq, UInt64.toNat_or, Nat.testBit_or]

@[simp] theorem testBit_not (a : UInt64) (i : Nat) :
    testBit (~~~a) i = (decide (i < 64) && !testBit a i) := by
  rw [testBit, testBit, UInt64.toBitVec_not, BitVec.getLsbD_not]

/-- A sum without carries. -/
theorem add_eq_or_of_testBit {a b : UInt64} (h : ∀ i, (testBit a i && testBit b i) = false) :
    a + b = a ||| b := by
  apply UInt64.toBitVec_inj.1
  rw [UInt64.toBitVec_add, UInt64.toBitVec_or]
  apply BitVec.add_eq_or_of_and_eq_zero
  apply BitVec.eq_of_getLsbD_eq
  intro i _
  rw [BitVec.getLsbD_and, BitVec.getLsbD_zero]
  exact h i

theorem toNat_lt_two_pow_of_testBit {w : UInt64} {n : Nat}
    (h : ∀ i, n ≤ i → testBit w i = false) : w.toNat < 2 ^ n :=
  Nat.lt_pow_two_of_testBit _ h

theorem one_le_of_two_pow {n : UInt64} {k : Nat} (power : n.toNat = 2 ^ k) : 1 ≤ n := by
  rw [UInt64.le_iff_toNat_le, power]
  exact Nat.two_pow_pos k

/-- Masking off the bits below a power of two leaves its greatest multiple that is not above. -/
theorem toNat_and_not_sub_one {n : UInt64} {k : Nat} (power : n.toNat = 2 ^ k) (w : UInt64) :
    (w &&& ~~~(n - 1)).toNat = w.toNat / 2 ^ k * 2 ^ k := by
  have ones : (n - 1).toNat = 2 ^ k - 1 := by
    rw [UInt64.toNat_sub_of_le _ _ (one_le_of_two_pow power), power]
    rfl
  apply Nat.eq_of_testBit_eq
  intro i
  rw [← testBit_eq, testBit_and, testBit_not, testBit_eq (n - 1), ones, Nat.testBit_two_pow_sub_one,
    Nat.testBit_mul_two_pow, Nat.testBit_div_two_pow]
  by_cases low : i < k
  · simp only [low, Nat.not_le.2 low, decide_true, decide_false, Bool.not_true, Bool.and_false,
      Bool.false_and]
  · have high := Nat.not_lt.1 low
    rw [Nat.sub_add_cancel high, decide_eq_false low, decide_eq_true high, Bool.true_and]
    by_cases inside : i < 64
    · rw [decide_eq_true inside, Bool.not_false, Bool.and_true, Bool.and_true, testBit_eq]
    · rw [testBit_of_le (Nat.not_lt.1 inside), Bool.false_and, ← testBit_eq,
        testBit_of_le (Nat.not_lt.1 inside)]

/-- Bits from 48 up have no part in a range below them. -/
theorem bitRange_mod (w : UInt64) {low width : Nat} (h : low + width ≤ 48) :
    bitRange (w % 0x1000000000000) low width = bitRange w low width := by
  have whole : (0x1000000000000 : UInt64).toNat = 2 ^ 48 := rfl
  apply Nat.eq_of_testBit_eq
  intro i
  simp only [bitRange, UInt64.toNat_mod, whole, Nat.testBit_mod_two_pow, Nat.testBit_div_two_pow]
  by_cases inside : i < width
  · have : i + low < 48 := by omega
    simp only [inside, this, decide_true, Bool.true_and]
  · simp only [inside, decide_false, Bool.false_and]

end Word

open Word (testBit)

theorem PageSize.testBit_bytes_sub_one (size : PageSize) (i : Nat) :
    testBit (size.bytes - 1) i = decide (i < size.shift) := by
  have ones : (size.bytes - 1).toNat = 2 ^ size.shift - 1 := by
    cases size <;> rfl
  rw [Word.testBit_eq, ones, Nat.testBit_two_pow_sub_one]

namespace Address

variable {space : Space}

theorem testBit_offset (a : Address space) (size : PageSize) (i : Nat) :
    testBit (a.offset size) i = (decide (i < size.shift) && testBit a.word i) := by
  rw [Word.testBit_eq, toNat_offset, size.toNat_bytes, Nat.one_shiftLeft, Nat.testBit_mod_two_pow]
  rfl

/-- The address with the bits from 48 up cleared. -/
def low (a : Address space) : Address space :=
  ⟨a.word % 0x1000000000000⟩

@[simp] theorem offset_low (a : Address space) (size : PageSize) :
    a.low.offset size = a.offset size := by
  have divides : size.bytes.toNat ∣ (0x1000000000000 : UInt64).toNat := by
    cases size <;> decide
  apply UInt64.toNat_inj.1
  rw [toNat_offset, toNat_offset, low, UInt64.toNat_mod, Nat.mod_mod_of_dvd _ divides]

end Address

end DebugMonitor
