import DebugMonitor.Proofs.Paging.Resolution

/-!
# The walk by the rules of the architecture

The architecture describes a walk by bit positions: nine bits of the address select an entry of
eight bytes, bit 0 of the entry says whether it is there, bit 7 of an entry of the two middle levels
makes it a leaf, and bits 12 to 51 are the frame. `Ends` states these rules level by level, as
arithmetic on words and physical addresses, and `walk_eq_iff_ends` shows that the walk of an address
space follows them and no others. `Path` has the words as well that a walk reads on its way, and
`path_walk` shows that they are the `footprint` of the walk, one word in each table on its route.
`walk_low` and `resolve_low` say that the sixteen highest bits of an address take no part;
`walk_conforms` puts the statements together.
-/

namespace DebugMonitor.Paging

open Word (testBit bitRange)

namespace Level

/-- The lowest of the nine bits of an address that select an entry at a level. -/
def lowBit : Level → Nat
  | pml4 => 39
  | pdpt => 30
  | pd => 21
  | pt => 12

theorem shift_eq_lowBit (level : Level) : level.shift = level.lowBit := by
  cases level <;> rfl

theorem val_index (level : Level) (va : VirtualAddress) :
    (level.index va).val = bitRange va.word level.lowBit 9 := by
  rw [bitRange, ← level.shift_eq_lowBit, ← Nat.shiftRight_eq_div_pow]
  rfl

@[simp] theorem index_low (level : Level) (va : VirtualAddress) :
    level.index va.low = level.index va := by
  have covered : level.lowBit + 9 ≤ 48 := by
    cases level <;> decide
  apply Fin.ext
  rw [val_index, val_index]
  exact Word.bitRange_mod va.word covered

/-- The level of the tables that the entries of a level refer to. -/
def next? : Level → Option Level
  | pml4 => some pdpt
  | pdpt => some pd
  | pd => some pt
  | pt => none

/-- The size of the page that a present entry of a level maps, if it maps one. -/
def mapped? : Level → Entry → Option PageSize
  | pml4, _ => none
  | pdpt, e => if testBit e.bits 7 then some .size1G else none
  | pd, e => if testBit e.bits 7 then some .size2M else none
  | pt, _ => some .size4K

end Level

/-- The word of memory with entry `i` of the table at physical address `table`. -/
def entrySlot (table i : Nat) : Nat :=
  (table + 8 * i) / 8

/-- How a walk of `va` ends that has come to the table of a level at a physical address. -/
inductive Ends (m : Memory) (va : VirtualAddress) : Level → Nat → Except Gap Leaf → Prop where
  | absent {level : Level} {table : Nat} (i : Fin entryCount) :
      i.val = bitRange va.word level.lowBit 9 →
      testBit (m.word (entrySlot table i)) 0 = false →
      Ends m va level table (.error ⟨level, i⟩)
  | page {level : Level} {table : Nat} {slot : Nat} {size : PageSize} :
      slot = entrySlot table (bitRange va.word level.lowBit 9) →
      testBit (m.word slot) 0 = true →
      level.mapped? ⟨m.word slot⟩ = some size →
      Ends m va level table (.ok ⟨slot, ⟨m.word slot⟩, size⟩)
  | table {level next : Level} {table slot : Nat} {result : Except Gap Leaf} :
      slot = entrySlot table (bitRange va.word level.lowBit 9) →
      testBit (m.word slot) 0 = true →
      level.mapped? ⟨m.word slot⟩ = none →
      level.next? = some next →
      Ends m va next (bitRange (m.word slot) 12 40 * 4096) result →
      Ends m va level table result

/-- How a walk ends, with the words it reads on its way. -/
inductive Path (m : Memory) (va : VirtualAddress) :
    Level → Nat → List Nat → Except Gap Leaf → Prop where
  | absent {level : Level} {table : Nat} (i : Fin entryCount) :
      i.val = bitRange va.word level.lowBit 9 →
      testBit (m.word (entrySlot table i)) 0 = false →
      Path m va level table [entrySlot table i] (.error ⟨level, i⟩)
  | page {level : Level} {table : Nat} {slot : Nat} {size : PageSize} :
      slot = entrySlot table (bitRange va.word level.lowBit 9) →
      testBit (m.word slot) 0 = true →
      level.mapped? ⟨m.word slot⟩ = some size →
      Path m va level table [slot] (.ok ⟨slot, ⟨m.word slot⟩, size⟩)
  | table {level next : Level} {table slot : Nat} {slots : List Nat} {result : Except Gap Leaf} :
      slot = entrySlot table (bitRange va.word level.lowBit 9) →
      testBit (m.word slot) 0 = true →
      level.mapped? ⟨m.word slot⟩ = none →
      level.next? = some next →
      Path m va next (bitRange (m.word slot) 12 40 * 4096) slots result →
      Path m va level table (slot :: slots) result

section

variable {m : Memory} {va : VirtualAddress} {level next : Level} {table : PhysicalAddress}

/-- The rules leave no choice. -/
theorem Ends.unique {table : Nat} {r r' : Except Gap Leaf} (h : Ends m va level table r)
    (h' : Ends m va level table r') : r = r' := by
  induction h with
  | absent i index gone =>
    cases h' with
    | absent i' index' => rw [Fin.ext (index.trans index'.symm)]
    | page slot there => rw [slot, ← index, gone] at there; cases there
    | table slot there => rw [slot, ← index, gone] at there; cases there
  | page slot there size =>
    cases h' with
    | absent i index gone => rw [slot, ← index, gone] at there; cases there
    | page slot' _ size' =>
      obtain rfl := slot.trans slot'.symm
      rw [size] at size'
      cases size'
      rfl
    | table slot' _ inner =>
      obtain rfl := slot.trans slot'.symm
      rw [size] at inner
      cases inner
  | table slot there inner below _ ih =>
    cases h' with
    | absent i index gone => rw [slot, ← index, gone] at there; cases there
    | page slot' _ size' =>
      obtain rfl := slot.trans slot'.symm
      rw [inner] at size'
      cases size'
    | table slot' _ _ below' rest =>
      obtain rfl := slot.trans slot'.symm
      rw [below] at below'
      cases below'
      exact ih rest

theorem entrySlot_index :
    entrySlot table.word.toNat (bitRange va.word level.lowBit 9) = slotOf table (level.index va) := by
  rw [entrySlot, slotOf, Level.val_index]
  omega

theorem Path.ends {table : Nat} {slots : List Nat} {result : Except Gap Leaf}
    (h : Path m va level table slots result) : Ends m va level table result := by
  induction h with
  | absent i index gone => exact .absent i index gone
  | page slot there maps => exact .page slot there maps
  | table slot there inner below _ ih => exact .table slot there inner below ih

/-! ### The steps of a walk -/

theorem path_of_step_eq_error {gap : Gap} (h : step m level table va = .error gap) :
    Path m va level table.word.toNat [slotOf table (level.index va)] (.error gap) := by
  simp only [step] at h
  split at h
  · cases h
  · rename_i gone
    cases h
    rw [← entrySlot_index, ← Level.val_index]
    apply Path.absent _ (level.val_index va)
    rw [Level.val_index, entrySlot_index]
    exact Bool.eq_false_iff.2 gone

theorem path_of_step_of_mapped {slot : Nat} {e : Entry} {size : PageSize}
    (h : step m level table va = .ok (slot, e)) (maps : level.mapped? e = some size) :
    Path m va level table.word.toNat [slotOf table (level.index va)] (.ok ⟨slot, e, size⟩) := by
  simp only [step] at h
  split at h
  · rename_i there
    cases h
    exact Path.page entrySlot_index.symm there maps
  · cases h

theorem path_of_step_of_next {slot : Nat} {e : Entry} {slots : List Nat} {result : Except Gap Leaf}
    (h : step m level table va = .ok (slot, e)) (inner : level.mapped? e = none)
    (below : level.next? = some next)
    (rest : Path m va next e.physicalAddress.word.toNat slots result) :
    Path m va level table.word.toNat (slotOf table (level.index va) :: slots) result := by
  simp only [step] at h
  split at h
  · rename_i there
    cases h
    rw [Entry.toNat_physicalAddress] at rest
    exact Path.table entrySlot_index.symm there inner below rest
  · cases h

end

namespace AddressSpace

/-- The words that a walk reads, from the root down: one in each table on its route. -/
def footprint (space : AddressSpace) (va : VirtualAddress) : List Nat :=
  (space.route va).map fun table => slotOf table.2 (table.1.index va)

variable (space : AddressSpace) (va : VirtualAddress)

theorem path_walk :
    Path space.memory va .pml4 space.root.word.toNat (space.footprint va) (space.walk va) := by
  simp only [footprint, route, walk, bind, Except.bind, List.map_cons]
  cases h₄ : step space.memory .pml4 space.root va with
  | error gap => exact path_of_step_eq_error h₄
  | ok found₄ =>
    apply path_of_step_of_next h₄ rfl rfl
    dsimp only [List.map_cons]
    cases h₃ : step space.memory .pdpt found₄.2.physicalAddress va with
    | error gap => exact path_of_step_eq_error h₃
    | ok found₃ =>
      dsimp only
      split
      · rename_i large
        exact path_of_step_of_mapped h₃ (if_pos large)
      · rename_i small
        apply path_of_step_of_next h₃ (if_neg small) rfl
        cases h₂ : step space.memory .pd found₃.2.physicalAddress va with
        | error gap => exact path_of_step_eq_error h₂
        | ok found₂ =>
          dsimp only
          split
          · rename_i large
            exact path_of_step_of_mapped h₂ (if_pos large)
          · rename_i small
            apply path_of_step_of_next h₂ (if_neg small) rfl
            cases h₁ : step space.memory .pt found₂.2.physicalAddress va with
            | error gap => exact path_of_step_eq_error h₁
            | ok found₁ => exact path_of_step_of_mapped h₁ rfl

theorem ends_walk : Ends space.memory va .pml4 space.root.word.toNat (space.walk va) :=
  (space.path_walk va).ends

/-- A walk ends as the rules say, and in no other way. -/
theorem walk_eq_iff_ends (result : Except Gap Leaf) :
    space.walk va = result ↔ Ends space.memory va .pml4 space.root.word.toNat result := by
  constructor
  · rintro rfl
    exact space.ends_walk va
  · intro ends
    exact (space.ends_walk va).unique ends

@[simp] theorem walk_low : space.walk va.low = space.walk va := by
  simp [walk, step]

@[simp] theorem resolve_low : space.resolve va.low = space.resolve va := by
  simp [resolve, Leaf.resolve]

/-- What the walk of any address through any memory comes to. It ends as the rules of the
architecture say; an address whose walk ends in a gap is not mapped; any other lies where the frame
of its leaf and its own low bits say, within the 52 bits of physical addresses. Only the low 48 bits
of the address have a part in this, 36 of them as the four indices. -/
theorem walk_conforms :
    (∀ result, space.walk va = result ↔
      Ends space.memory va .pml4 space.root.word.toNat result) ∧
    (∀ gap, space.walk va = .error gap → space.resolve va = .ok none) ∧
    (∀ leaf, space.walk va = .ok leaf → ∃ pa, space.resolve va = .ok (some pa) ∧
      pa.word.toNat < 2 ^ 52 ∧
      ∀ i, testBit pa.word i =
        if i < leaf.size.shift then testBit va.word i
        else (decide (i < 52) && testBit leaf.entry.bits i)) ∧
    (∀ level : Level, (level.index va).val = bitRange va.word level.lowBit 9 ∧
      bitRange va.word level.lowBit 9 < 512) ∧
    space.walk va.low = space.walk va ∧ space.resolve va.low = space.resolve va := by
  refine ⟨space.walk_eq_iff_ends va, ?_, ?_, ?_, space.walk_low va, space.resolve_low va⟩
  · intro gap hwalk
    rw [resolve, hwalk]
  · intro leaf hwalk
    obtain ⟨pa, resolved⟩ := leaf.exists_resolve va
    refine ⟨pa, ?_, Leaf.toNat_resolve_lt resolved, Leaf.testBit_resolve resolved⟩
    rw [resolve, hwalk]
    exact congrArg (Except.map some) resolved
  · intro level
    exact ⟨level.val_index va, Nat.mod_lt _ (by decide)⟩

end AddressSpace

end DebugMonitor.Paging
