import DebugMonitor.Paging.Walk
import DebugMonitor.Proofs.Word.Bits

/-!
# Physical addresses of mapped addresses

An entry refers to a frame below the 52-bit physical address space, and the part of an address
inside its page is below the page size. Their sum fits a word, so resolving an address through a
leaf never faults, whatever the entry holds. The sum has no carries either: `Leaf.testBit_resolve`
gives the bits of the physical address, those of the mapped address below the size of the page and
those of the frame from there up.
-/

namespace DebugMonitor.Paging

open Word (testBit bitRange)

namespace Entry

theorem toNat_physicalAddress (e : Entry) :
    e.physicalAddress.word.toNat = bitRange e.bits 12 40 * 4096 := by
  have part : (e.getPart .frame).toNat = bitRange e.bits 12 40 := Word.Field.toNat_get _ _
  have bound : bitRange e.bits 12 40 < 2 ^ 40 := Nat.mod_lt _ (by decide)
  have shift : (12 : UInt64).toNat % 64 = 12 := rfl
  change (e.getPart .frame <<< 12).toNat = _
  rw [UInt64.toNat_shiftLeft, Nat.shiftLeft_eq, shift, part]
  omega

theorem toNat_physicalAddress_lt (e : Entry) : e.physicalAddress.word.toNat < 0x10000000000000 := by
  have bound : bitRange e.bits 12 40 < 2 ^ 40 := Nat.mod_lt _ (by decide)
  rw [toNat_physicalAddress]
  omega

theorem testBit_physicalAddress (e : Entry) (i : Nat) :
    testBit e.physicalAddress.word i = (decide (12 ≤ i ∧ i < 52) && testBit e.bits i) := by
  have frame : e.physicalAddress.word.toNat = e.bits.toNat / 2 ^ 12 % 2 ^ 40 * 2 ^ 12 :=
    e.toNat_physicalAddress
  rw [Word.testBit_eq, frame, Nat.testBit_mul_two_pow, Nat.testBit_mod_two_pow,
    Nat.testBit_div_two_pow]
  by_cases above : 12 ≤ i
  · have below : i - 12 < 40 ↔ i < 52 := by omega
    rw [Nat.sub_add_cancel above, Word.testBit_eq]
    simp only [above, below, true_and, decide_true, Bool.true_and]
  · simp only [above, false_and, decide_false, Bool.false_and]

theorem frameBase_of_one_le (e : Entry) {n : UInt64} (h : 1 ≤ n) :
    e.frameBase n = .ok ⟨e.physicalAddress.word &&& ~~~(n - 1)⟩ := by
  rw [frameBase, Word.sub, if_pos h]
  rfl

theorem frameBase_eq (e : Entry) (size : PageSize) :
    e.frameBase size.bytes = .ok ⟨e.physicalAddress.word &&& ~~~(size.bytes - 1)⟩ :=
  e.frameBase_of_one_le (by cases size <;> decide)

/-- Dropping the bits below a page size succeeds and does not enlarge the frame. -/
theorem exists_frameBase (e : Entry) (size : PageSize) :
    ∃ base, e.frameBase size.bytes = .ok base ∧ base.word.toNat < 0x10000000000000 := by
  refine ⟨_, e.frameBase_eq size, ?_⟩
  exact Nat.lt_of_le_of_lt (UInt64.le_iff_toNat_le.1 UInt64.and_le_left)
    e.toNat_physicalAddress_lt

theorem testBit_frameBase {e : Entry} {size : PageSize} {base : PhysicalAddress}
    (h : e.frameBase size.bytes = .ok base) (i : Nat) :
    testBit base.word i = (decide (size.shift ≤ i ∧ i < 52) && testBit e.bits i) := by
  have least : 12 ≤ size.shift := by
    cases size <;> decide
  rw [frameBase_eq] at h
  cases h
  rw [Word.testBit_and, testBit_physicalAddress, Word.testBit_not, size.testBit_bytes_sub_one]
  by_cases above : size.shift ≤ i
  · have lowest : 12 ≤ i := Nat.le_trans least above
    have width : i < 52 → i < 64 := by omega
    by_cases inside : i < 52
    · simp only [above, lowest, inside, width inside, Nat.not_lt.2 above, true_and, decide_true,
        decide_false, Bool.not_false, Bool.and_true]
    · simp only [inside, and_false, decide_false, Bool.false_and]
  · simp only [above, Nat.not_le.1 above, false_and, decide_true, decide_false, Bool.not_true,
      Bool.and_false, Bool.false_and]

end Entry

theorem toNat_offset_lt (size : PageSize) (va : VirtualAddress) :
    (va.offset size).toNat < size.bytes.toNat := by
  rw [Address.toNat_offset]
  exact Nat.mod_lt _ size.toNat_bytes_pos

namespace Leaf

/-- Where an address of the mapped page lies: in the frame, at its offset in the page. -/
def place (leaf : Leaf) (va : VirtualAddress) : PhysicalAddress :=
  ⟨(leaf.entry.physicalAddress.word &&& ~~~(leaf.size.bytes - 1)) + va.offset leaf.size⟩

theorem resolve_eq (leaf : Leaf) (va : VirtualAddress) : leaf.resolve va = .ok (leaf.place va) := by
  obtain ⟨base, hbase, bound⟩ := leaf.entry.exists_frameBase leaf.size
  have offset := toNat_offset_lt leaf.size va
  have largest : leaf.size.bytes.toNat ≤ 2 ^ 30 := by
    cases leaf.size <;> decide
  have fits : base.word.toNat + (va.offset leaf.size).toNat < UInt64.size := by
    have : UInt64.size = 2 ^ 64 := rfl
    omega
  rw [Entry.frameBase_eq] at hbase
  cases hbase
  simp only [resolve, Entry.frameBase_eq]
  exact Address.add_eq_ok_iff.2 (Word.toNat_add_of_lt fits)

/-- Every address has a physical address through every leaf. -/
theorem exists_resolve (leaf : Leaf) (va : VirtualAddress) : ∃ pa, leaf.resolve va = .ok pa :=
  ⟨_, leaf.resolve_eq va⟩

variable {leaf : Leaf} {va : VirtualAddress} {pa : PhysicalAddress}

/-- Below the size of the page the bits of the physical address are those of the mapped address,
from there up they are those of the frame. -/
theorem testBit_resolve (h : leaf.resolve va = .ok pa) (i : Nat) :
    testBit pa.word i =
      if i < leaf.size.shift then testBit va.word i
      else (decide (i < 52) && testBit leaf.entry.bits i) := by
  obtain ⟨base, hbase, -⟩ := leaf.entry.exists_frameBase leaf.size
  simp only [resolve, hbase, bind, Except.bind] at h
  have sum := Address.add_eq_ok_iff.1 h
  have bits := Entry.testBit_frameBase hbase
  have offset := va.testBit_offset leaf.size
  have apart (i : Nat) : (testBit base.word i && testBit (va.offset leaf.size) i) = false := by
    rw [bits, offset]
    grind
  have whole : pa.word = base.word ||| va.offset leaf.size := by
    rw [← Word.add_eq_or_of_testBit apart, ← UInt64.toNat_inj, sum, Word.toNat_add_of_lt]
    rw [← sum]
    exact pa.word.toNat_lt_size
  rw [whole, Word.testBit_or, bits, offset]
  split
  · rename_i below
    simp only [below, Nat.not_le.2 below, false_and, decide_true, decide_false, Bool.false_and,
      Bool.true_and, Bool.false_or]
  · rename_i above
    simp only [above, Nat.not_lt.1 above, true_and, decide_false, Bool.false_and, Bool.or_false]

/-- Physical addresses have 52 bits. -/
theorem toNat_resolve_lt (h : leaf.resolve va = .ok pa) : pa.word.toNat < 2 ^ 52 := by
  have largest : leaf.size.shift ≤ 30 := by
    cases leaf.size <;> decide
  apply Word.toNat_lt_two_pow_of_testBit
  intro i beyond
  rw [testBit_resolve h, if_neg (by omega), decide_eq_false (Nat.not_lt.2 beyond), Bool.false_and]

end Leaf

namespace AddressSpace

variable {space : AddressSpace} {va : VirtualAddress}

theorem resolve_of_walk_eq_ok {leaf : Leaf} (h : space.walk va = .ok leaf) :
    space.resolve va = .ok (some (leaf.place va)) := by
  rw [resolve, h]
  exact congrArg (Except.map some) (leaf.resolve_eq va)

theorem resolve_of_walk_eq_error {gap : Gap} (h : space.walk va = .error gap) :
    space.resolve va = .ok none := by
  rw [resolve, h]

end AddressSpace

end DebugMonitor.Paging
