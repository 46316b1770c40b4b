import DebugMonitor.Proofs.Paging.Architecture
import Mathlib.Logic.ExistsUnique

/-!
# Blocks that one leaf maps

Addresses that differ only below the size of a page select the same entries down to the level of its
leaf, and the walk ends there, before an index is used in which they differ. So one leaf maps the whole
block of addresses (`walk_eq_of_sameBlock`). The frame of the leaf starts at a multiple of the size and the
offset is below it, so the block lies in physical memory as it is, in one piece and in order:
`mapsBlock` puts this together.
-/

namespace DebugMonitor

/-- Addresses in the same page of a size. -/
def SameBlock (size : PageSize) (a b : VirtualAddress) : Prop :=
  a.word.toNat / size.bytes.toNat = b.word.toNat / size.bytes.toNat

namespace Paging

open Word (testBit bitRange)

namespace Level

theorem lowBit_le_of_next? {level next : Level} (h : level.next? = some next) :
    next.lowBit ≤ level.lowBit := by
  cases level <;> cases h <;> decide

theorem shift_of_mapped? {level : Level} {e : Entry} {size : PageSize}
    (h : level.mapped? e = some size) : size.shift = level.lowBit := by
  cases level with
  | pml4 => cases h
  | pdpt =>
    rw [mapped?, Option.ite_none_right_eq_some] at h
    cases h.2
    rfl
  | pd =>
    rw [mapped?, Option.ite_none_right_eq_some] at h
    cases h.2
    rfl
  | pt =>
    cases h
    rfl

/-- Addresses of one block have the same index at every level down to that of the block. -/
theorem index_eq_of_sameBlock {level : Level} {size : PageSize} {a b : VirtualAddress}
    (same : SameBlock size a b) (le : size.shift ≤ level.lowBit) :
    bitRange b.word level.lowBit 9 = bitRange a.word level.lowBit 9 := by
  have above (w : UInt64) : w.toNat / 2 ^ level.lowBit =
      w.toNat / size.bytes.toNat / 2 ^ (level.lowBit - size.shift) := by
    rw [size.toNat_bytes, Nat.one_shiftLeft, Nat.div_div_eq_div_mul, ← Nat.pow_add,
      Nat.add_sub_cancel' le]
  rw [bitRange, bitRange, above, above, same]

end Level

section

variable {m : Memory} {va other : VirtualAddress} {level : Level} {table : Nat} {leaf : Leaf}

/-- A walk ends at or below the level it has come to. -/
theorem Ends.shift_le (h : Ends m va level table (.ok leaf)) : leaf.size.shift ≤ level.lowBit := by
  generalize found : (.ok leaf : Except Gap Leaf) = result at h
  induction h with
  | absent i index gone => cases found
  | page here there maps =>
    cases found
    exact Nat.le_of_eq (Level.shift_of_mapped? maps)
  | table here there inner below rest ih =>
    exact Nat.le_trans (ih found) (Level.lowBit_le_of_next? below)

/-- The walks of two addresses in the block of a leaf are one walk. -/
theorem Ends.of_sameBlock (h : Ends m va level table (.ok leaf))
    (same : SameBlock leaf.size va other) : Ends m other level table (.ok leaf) := by
  have le := h.shift_le
  generalize found : (.ok leaf : Except Gap Leaf) = result at h
  induction h with
  | absent i index gone => cases found
  | page here there maps =>
    cases found
    rw [← Level.index_eq_of_sameBlock same le] at here
    exact .page here there maps
  | table here there inner below rest ih =>
    subst found
    rw [← Level.index_eq_of_sameBlock same le] at here
    exact .table here there inner below (ih rest.shift_le rfl)

end

namespace Leaf

variable (leaf : Leaf)

/-- The start of the mapped block in physical memory. -/
def base : PhysicalAddress :=
  ⟨leaf.entry.physicalAddress.word &&& ~~~(leaf.size.bytes - 1)⟩

theorem frameBase_eq_base : leaf.entry.frameBase leaf.size.bytes = .ok leaf.base :=
  leaf.entry.frameBase_eq leaf.size

theorem toNat_bytes_dvd_base : leaf.size.bytes.toNat ∣ leaf.base.word.toNat := by
  have power : leaf.size.bytes.toNat = 2 ^ leaf.size.shift :=
    leaf.size.toNat_bytes.trans (Nat.one_shiftLeft _)
  rw [base, Word.toNat_and_not_sub_one power, power]
  exact Nat.dvd_mul_left _ _

/-- An address lies as far behind the start of the block as in its page. -/
theorem toNat_place (va : VirtualAddress) :
    (leaf.place va).word.toNat = leaf.base.word.toNat + va.word.toNat % leaf.size.bytes.toNat := by
  have placed := leaf.resolve_eq va
  simp only [resolve, frameBase_eq_base, bind, Except.bind] at placed
  rw [Address.add_eq_ok_iff.1 placed, Address.toNat_offset]

end Leaf

namespace AddressSpace

/-- One leaf maps the block of an address, in one piece and in order, to the physical addresses from
`base` on. -/
structure MapsBlock (space : AddressSpace) (va : VirtualAddress) (leaf : Leaf)
    (base : PhysicalAddress) : Prop where
  frameBase_eq : leaf.entry.frameBase leaf.size.bytes = .ok base
  dvd_base : leaf.size.bytes.toNat ∣ base.word.toNat
  walk_eq : ∀ a, SameBlock leaf.size va a → space.walk a = .ok leaf
  exists_resolve_eq : ∀ a b, SameBlock leaf.size va a → SameBlock leaf.size va b →
    ∃ pa pb, space.resolve a = .ok (some pa) ∧ space.resolve b = .ok (some pb) ∧
      (pb.word.toNat : Int) - pa.word.toNat = (b.word.toNat : Int) - a.word.toNat ∧
      (a < b ↔ pa < pb)
  inside : ∀ a pa, SameBlock leaf.size va a → space.resolve a = .ok (some pa) →
    base.word.toNat ≤ pa.word.toNat ∧ pa.word.toNat < base.word.toNat + leaf.size.bytes.toNat
  existsUnique : ∀ pa : PhysicalAddress, base.word.toNat ≤ pa.word.toNat →
    pa.word.toNat < base.word.toNat + leaf.size.bytes.toNat →
    ∃! a, SameBlock leaf.size va a ∧ space.resolve a = .ok (some pa)

variable {space : AddressSpace} {va a b : VirtualAddress} {leaf : Leaf}

theorem walk_eq_of_sameBlock (h : space.walk va = .ok leaf) (same : SameBlock leaf.size va a) :
    space.walk a = .ok leaf :=
  (space.walk_eq_iff_ends a _).2 (((space.walk_eq_iff_ends va _).1 h).of_sameBlock same)

theorem resolve_eq_some_iff_of_sameBlock (h : space.walk va = .ok leaf)
    (same : SameBlock leaf.size va a) {pa : PhysicalAddress} :
    space.resolve a = .ok (some pa) ↔
      pa.word.toNat = leaf.base.word.toNat + a.word.toNat % leaf.size.bytes.toNat := by
  rw [resolve_of_walk_eq_ok (walk_eq_of_sameBlock h same), ← leaf.toNat_place a, Except.ok.injEq,
    Option.some.injEq]
  constructor
  · rintro rfl
    rfl
  · exact fun value => congrArg Address.mk (UInt64.toNat_inj.1 value.symm)

/-- The address at a distance from the start of a block. -/
theorem exists_sameBlock (size : PageSize) (va : VirtualAddress) {d : Nat}
    (h : d < size.bytes.toNat) :
    ∃ a, SameBlock size va a ∧ a.word.toNat % size.bytes.toNat = d := by
  have room : va.word.toNat / size.bytes.toNat * size.bytes.toNat + size.bytes.toNat ≤ UInt64.size := by
    obtain ⟨count, whole⟩ := size.toNat_bytes_dvd
    have bound := va.word.toNat_lt_size
    rw [whole] at bound ⊢
    rw [← Nat.succ_mul, Nat.mul_comm]
    exact Nat.mul_le_mul_left _ (Nat.div_lt_of_lt_mul bound)
  have value : (UInt64.ofNat (va.word.toNat / size.bytes.toNat * size.bytes.toNat + d)).toNat =
      va.word.toNat / size.bytes.toNat * size.bytes.toNat + d :=
    UInt64.toNat_ofNat_of_lt' (by omega)
  refine ⟨⟨UInt64.ofNat (va.word.toNat / size.bytes.toNat * size.bytes.toNat + d)⟩, ?_, ?_⟩
  · rw [SameBlock, value, Nat.add_comm, Nat.add_mul_div_right _ _ size.toNat_bytes_pos,
      Nat.div_eq_of_lt h, Nat.zero_add]
  · rw [value, Nat.add_comm, Nat.add_mul_mod_self_right, Nat.mod_eq_of_lt h]

/-- An address is known by its block and its distance from the start. -/
theorem eq_of_sameBlock {size : PageSize} (same : SameBlock size a b)
    (distance : a.word.toNat % size.bytes.toNat = b.word.toNat % size.bytes.toNat) : a = b := by
  have value : a.word.toNat = b.word.toNat := by
    rw [← Nat.div_add_mod a.word.toNat size.bytes.toNat, same, distance, Nat.div_add_mod]
  exact congrArg Address.mk (UInt64.toNat_inj.1 value)

/-- The leaf of an address maps its block. -/
theorem mapsBlock (h : space.walk va = .ok leaf) : space.MapsBlock va leaf leaf.base where
  frameBase_eq := leaf.frameBase_eq_base
  dvd_base := leaf.toNat_bytes_dvd_base
  walk_eq _ same := walk_eq_of_sameBlock h same
  exists_resolve_eq a b sameA sameB := by
    refine ⟨_, _, resolve_of_walk_eq_ok (walk_eq_of_sameBlock h sameA),
      resolve_of_walk_eq_ok (walk_eq_of_sameBlock h sameB), ?_⟩
    have placeA := leaf.toNat_place a
    have placeB := leaf.toNat_place b
    have block := sameA.symm.trans sameB
    have partsA := Nat.div_add_mod a.word.toNat leaf.size.bytes.toNat
    have partsB := Nat.div_add_mod b.word.toNat leaf.size.bytes.toNat
    rw [block] at partsA
    rw [Address.lt_iff, Address.lt_iff]
    omega
  inside a pa same resolved := by
    rw [(resolve_eq_some_iff_of_sameBlock h same).1 resolved]
    have below := Nat.mod_lt a.word.toNat leaf.size.toNat_bytes_pos
    omega
  existsUnique pa above below := by
    obtain ⟨a, same, distance⟩ := exists_sameBlock leaf.size va
      (d := pa.word.toNat - leaf.base.word.toNat) (by omega)
    refine ⟨a, ⟨same, (resolve_eq_some_iff_of_sameBlock h same).2 (by omega)⟩, ?_⟩
    rintro b ⟨sameB, resolved⟩
    have place := (resolve_eq_some_iff_of_sameBlock h sameB).1 resolved
    exact eq_of_sameBlock (sameB.symm.trans same) (by omega)

end AddressSpace

end Paging

end DebugMonitor
