import DebugMonitor.Monitor.Mapping

/-!
# Memories that agree up to permissions

A walk reads the present bit, the large-page bit and the frame of an entry, and never the user or
the writable bit. Memories that agree in all other bits therefore give every address the same walk:
the same tables, the same slot and size of the leaf, and the same physical address. Nothing is asked
of the tables, which may be shared, refer to themselves or lie outside memory.

`AddressSpace.Agree` is the relation; `Agree.walk_eq` and `Agree.resolve_eq` say what it preserves.
-/

namespace DebugMonitor

namespace Paging

namespace Entry

/-- Entries that differ at most in the two permission bits. -/
def Agree (e f : Entry) : Prop :=
  ∀ i, i ≠ Flag.user.bit → i ≠ Flag.writable.bit →
    Word.testBit e.bits i = Word.testBit f.bits i

variable {e f g : Entry}

theorem Agree.refl (e : Entry) : Agree e e := fun _ _ _ => rfl

theorem Agree.symm (h : Agree e f) : Agree f e :=
  fun i user writable => (h i user writable).symm

theorem Agree.trans (h₁ : Agree e f) (h₂ : Agree f g) : Agree e g :=
  fun i user writable => (h₁ i user writable).trans (h₂ i user writable)

theorem Agree.get_eq (h : Agree e f) (flag : Flag) (user : flag ≠ .user)
    (writable : flag ≠ .writable) : e.get flag = f.get flag := by
  apply h
  · cases flag <;> first | exact absurd rfl user | decide
  · cases flag <;> first | exact absurd rfl writable | decide

theorem Agree.physicalAddress_eq (h : Agree e f) : e.physicalAddress = f.physicalAddress := by
  have frame : e.getPart .frame = f.getPart .frame := by
    refine Word.eq_of_testBit_eq fun i => ?_
    rw [getPart, getPart, Word.Field.testBit_get, Word.Field.testBit_get]
    -- The frame starts at bit 12, above both permission bits.
    rw [h _ (by simp [Part.field, Flag.bit]; omega) (by simp [Part.field, Flag.bit]; omega)]
  rw [physicalAddress, physicalAddress, frame]

theorem Agree.frameBase_eq (h : Agree e f) (bytes : UInt64) :
    e.frameBase bytes = f.frameBase bytes := by
  rw [frameBase, frameBase, h.physicalAddress_eq]

/-- The bits of an entry whose permissions were replaced. -/
theorem testBit_apply (p : Command.Permission) (e : Entry) (i : Nat) :
    Word.testBit (p.apply e).bits i =
      if i = Flag.user.bit then p.user
      else if i = Flag.writable.bit then p.writable
      else Word.testBit e.bits i := by
  rw [Command.Permission.apply, testBit_bits_set, testBit_bits_set]
  by_cases user : i = Flag.user.bit
  · subst user
    rfl
  · by_cases writable : i = Flag.writable.bit
    · subst writable
      rfl
    · rw [if_neg (Ne.symm writable), if_neg (Ne.symm user), if_neg user, if_neg writable]

theorem agree_apply (p : Command.Permission) (e : Entry) : Agree e (p.apply e) := by
  intro i user writable
  rw [testBit_apply, if_neg user, if_neg writable]

/-- Replacing the permissions takes away the only difference between entries that agree. -/
theorem Agree.apply_eq (h : Agree e f) (p : Command.Permission) : p.apply f = p.apply e := by
  have bits : (p.apply f).bits = (p.apply e).bits := by
    refine Word.eq_of_testBit_eq fun i => ?_
    rw [testBit_apply, testBit_apply]
    split
    · rfl
    · split
      · rfl
      · rename_i user writable
        exact (h i user writable).symm
  exact congrArg Entry.mk bits

/-- Replacing the permissions twice is replacing them once. -/
@[simp] theorem apply_apply (p : Command.Permission) (e : Entry) :
    p.apply (p.apply e) = p.apply e :=
  (agree_apply p e).apply_eq p

end Entry

end Paging

open Paging

namespace Memory

/-- The entry that a word of memory is when it is read as part of a table. -/
def entry (m : Memory) (slot : Nat) : Entry := ⟨m.word slot⟩

/-- Memories whose words differ at most in the two permission bits. -/
def Agree (a b : Memory) : Prop :=
  ∀ slot, (a.entry slot).Agree (b.entry slot)

variable {a b c : Memory}

theorem Agree.refl (m : Memory) : Agree m m := fun _ => .refl _

theorem Agree.symm (h : Agree a b) : Agree b a := fun slot => (h slot).symm

theorem Agree.trans (h₁ : Agree a b) (h₂ : Agree b c) : Agree a c :=
  fun slot => (h₁ slot).trans (h₂ slot)

/-- A word that is overwritten reads as the new word inside memory, and as zero beyond it. -/
theorem word_setWord (m : Memory) (i j : Nat) (w : UInt64) :
    (m.setWord i w).word j = if i = j ∧ 8 * i < m.byteCount then w else m.word j := by
  by_cases inside : 8 * i < m.byteCount
  · by_cases same : i = j
    · subst same
      simp [inside]
    · simp [same]
  · have beyond := Nat.not_lt.1 inside
    by_cases same : i = j
    · subst same
      simp [inside, beyond]
    · simp [same]

/-- Writing an entry that agrees with the one in its place leaves an agreeing memory. -/
theorem agree_setWord (m : Memory) {slot : Nat} {e : Entry} (h : (m.entry slot).Agree e) :
    Agree m (m.setWord slot e.bits) := by
  intro other
  rw [entry, entry, word_setWord]
  split
  · rename_i hit
    rw [← hit.1]
    exact h
  · exact .refl _

end Memory

namespace Paging

variable {a b : Memory}

theorem step_eq_ok {m : Memory} {level : Level} {table : PhysicalAddress} {va : VirtualAddress}
    {found : Nat × Entry} (h : step m level table va = .ok found) :
    found.2 = m.entry found.1 ∧ found.2.get .present = true := by
  simp only [step] at h
  split at h
  · rename_i present
    cases h
    exact ⟨rfl, present⟩
  · cases h

/-- One step reads the same slot in memories that agree. -/
theorem step_of_agree (h : a.Agree b) (level : Level) (table : PhysicalAddress)
    (va : VirtualAddress) :
    step b level table va =
      (step a level table va).map fun found => (found.1, b.entry found.1) := by
  have present := (h (slotOf table (level.index va))).get_eq .present (by decide) (by decide)
  unfold Memory.entry at present
  simp only [step, present]
  split <;> rfl

/-- The entry of a step agrees with the word that another memory has in its slot. -/
theorem agree_of_step (h : a.Agree b) {level : Level} {table : PhysicalAddress}
    {va : VirtualAddress} {found : Nat × Entry} (hstep : step a level table va = .ok found) :
    found.2.Agree (b.entry found.1) := by
  rw [(step_eq_ok hstep).1]
  exact h found.1

namespace AddressSpace

/-- Spaces with the same root in memories that agree. -/
structure Agree (s t : AddressSpace) : Prop where
  root : t.root = s.root
  memory : s.memory.Agree t.memory

variable {s t u : AddressSpace}

theorem Agree.refl (s : AddressSpace) : Agree s s := ⟨rfl, .refl _⟩

theorem Agree.trans (h₁ : Agree s t) (h₂ : Agree t u) : Agree s u :=
  ⟨h₂.root.trans h₁.root, h₁.memory.trans h₂.memory⟩

private theorem exists_step_of_walk {va : VirtualAddress} {leaf : Leaf}
    (h : s.walk va = .ok leaf) :
    ∃ level table, step s.memory level table va = .ok (leaf.slot, leaf.entry) := by
  simp only [walk, bind, Except.bind] at h
  split at h
  · cases h
  · split at h
    · cases h
    · rename_i h₃
      split at h
      · cases h
        exact ⟨_, _, h₃⟩
      · split at h
        · cases h
        · rename_i h₂
          split at h
          · cases h
            exact ⟨_, _, h₂⟩
          · split at h
            · cases h
            · rename_i h₁
              cases h
              exact ⟨_, _, h₁⟩

/-- The leaf of an address is present, and its entry is the word in its slot. -/
theorem walk_eq_ok {va : VirtualAddress} {leaf : Leaf} (h : s.walk va = .ok leaf) :
    leaf.entry = s.memory.entry leaf.slot ∧ leaf.entry.get .present = true := by
  obtain ⟨level, table, hstep⟩ := exists_step_of_walk h
  exact step_eq_ok hstep

/-- Spaces that agree map every address by the same slot and size, or by none. -/
theorem Agree.walk_eq (h : Agree s t) (va : VirtualAddress) :
    t.walk va = (s.walk va).map fun leaf => { leaf with entry := t.memory.entry leaf.slot } := by
  simp only [walk, bind, Except.bind, step_of_agree h.memory, h.root]
  cases h₄ : step s.memory .pml4 s.root va with
  | error gap => rfl
  | ok found₄ =>
    have e₄ := agree_of_step h.memory h₄
    simp only [Except.map, ← e₄.physicalAddress_eq]
    cases h₃ : step s.memory .pdpt found₄.2.physicalAddress va with
    | error gap => rfl
    | ok found₃ =>
      have e₃ := agree_of_step h.memory h₃
      have large₃ := e₃.get_eq .largePage (by decide) (by decide)
      simp only [← e₃.physicalAddress_eq, ← large₃]
      split
      · rfl
      · cases h₂ : step s.memory .pd found₃.2.physicalAddress va with
        | error gap => rfl
        | ok found₂ =>
          have e₂ := agree_of_step h.memory h₂
          have large₂ := e₂.get_eq .largePage (by decide) (by decide)
          simp only [← e₂.physicalAddress_eq, ← large₂]
          split
          · rfl
          · cases h₁ : step s.memory .pt found₂.2.physicalAddress va <;> rfl

/-- Spaces that agree read the same tables on the way to an address. -/
theorem Agree.route_eq (h : Agree s t) (va : VirtualAddress) : t.route va = s.route va := by
  simp only [route, step_of_agree h.memory, h.root]
  cases h₄ : step s.memory .pml4 s.root va with
  | error gap => rfl
  | ok found₄ =>
    have e₄ := agree_of_step h.memory h₄
    simp only [Except.map, ← e₄.physicalAddress_eq]
    cases h₃ : step s.memory .pdpt found₄.2.physicalAddress va with
    | error gap => rfl
    | ok found₃ =>
      have e₃ := agree_of_step h.memory h₃
      have large₃ := e₃.get_eq .largePage (by decide) (by decide)
      simp only [← e₃.physicalAddress_eq, ← large₃]
      cases h₂ : step s.memory .pd found₃.2.physicalAddress va with
      | error gap => rfl
      | ok found₂ =>
        have e₂ := agree_of_step h.memory h₂
        have large₂ := e₂.get_eq .largePage (by decide) (by decide)
        simp only [← e₂.physicalAddress_eq, ← large₂]

/-- Spaces that agree translate every address alike, and leave the same addresses unmapped. -/
theorem Agree.resolve_eq (h : Agree s t) (va : VirtualAddress) : t.resolve va = s.resolve va := by
  rw [resolve, resolve, h.walk_eq]
  cases hwalk : s.walk va with
  | error gap => rfl
  | ok leaf =>
    have agree : leaf.entry.Agree (t.memory.entry leaf.slot) := by
      rw [(walk_eq_ok hwalk).1]
      exact h.memory leaf.slot
    simp only [Except.map, Leaf.resolve, agree.frameBase_eq leaf.size.bytes]

end AddressSpace

end Paging

end DebugMonitor
