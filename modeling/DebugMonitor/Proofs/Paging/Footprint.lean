import DebugMonitor.Proofs.Paging.Architecture
import DebugMonitor.Proofs.Paging.Edit

/-!
# What an edit of a leaf does to other walks

A walk depends on the words that it reads and on nothing else in memory. So when the entry in one word is
taken away, a walk that does not read this word goes on as before (`Path.ends_of_word_eq`), and a walk
that reads it, at whatever level, follows its old way up to the word and ends there in a gap
(`Path.exists_ends_of_mem`). `setLeafFlag_effect` says what setting a flag of a leaf does to memory and to the
walks of all addresses, in tables that may be shared or refer to themselves.
-/

namespace DebugMonitor.Paging

open Word (testBit)

section

variable {m m' : Memory} {va : VirtualAddress} {level : Level} {table slot : Nat} {slots : List Nat}
variable {result : Except Gap Leaf}

/-- The word of the leaf is the last that a walk reads. -/
theorem Path.slot_mem {leaf : Leaf} (h : Path m va level table slots (.ok leaf)) :
    leaf.slot ∈ slots := by
  generalize found : (.ok leaf : Except Gap Leaf) = result at h
  induction h with
  | absent i index gone => cases found
  | page here there maps =>
    cases found
    exact List.mem_singleton_self _
  | table here there inner below rest ih => exact List.mem_cons_of_mem _ (ih found)

/-- A walk ends alike in memories that have the same words on its way. -/
theorem Path.ends_of_word_eq (h : Path m va level table slots result)
    (same : ∀ slot ∈ slots, m'.word slot = m.word slot) : Ends m' va level table result := by
  induction h with
  | absent i index gone =>
    refine .absent i index ?_
    rwa [same _ (List.mem_singleton_self _)]
  | page here there maps =>
    have word := same _ (List.mem_singleton_self _)
    rw [← word] at there maps ⊢
    exact .page here there maps
  | table here there inner below rest ih =>
    rw [List.forall_mem_cons] at same
    have onward := ih same.2
    rw [← same.1] at there inner onward
    exact .table here there inner below onward

/-- Where the entry in one word is taken away, a walk that reads the word ends there in a gap. -/
theorem Path.exists_ends_of_mem (h : Path m va level table slots result) (read : slot ∈ slots)
    (gone : testBit (m'.word slot) 0 = false)
    (same : ∀ other, other ≠ slot → m'.word other = m.word other) :
    ∃ gap, Ends m' va level table (.error gap) := by
  have here (level : Level) (table : Nat)
      (place : slot = entrySlot table (Word.bitRange va.word level.lowBit 9)) :
      ∃ gap, Ends m' va level table (.error gap) := by
    refine ⟨_, .absent (level.index va) (level.val_index va) ?_⟩
    rwa [level.val_index, ← place]
  induction h with
  | absent i index gone' => exact here _ _ (index ▸ List.mem_singleton.1 read)
  | page place there maps => exact here _ _ ((List.mem_singleton.1 read).trans place)
  | @table level next table first slots result place there inner below rest ih =>
    by_cases hit : slot = first
    · exact here _ _ (hit.trans place)
    · -- The word in front of it is the same in both memories, so both walks go on to the same table.
      obtain ⟨gap, ends⟩ := ih ((List.mem_cons.1 read).resolve_left hit)
      have word := same first (Ne.symm hit)
      rw [← word] at there inner ends
      exact ⟨gap, .table place there inner below ends⟩

end

/-- Setting a permission, or a flag that is set like that already, changes permissions at most. -/
theorem Entry.agree_set {e : Entry} {f : Flag} {on : Bool}
    (h : f = .user ∨ f = .writable ∨ e.get f = on) : Agree e (e.set f on) := by
  intro i user writable
  rw [testBit_bits_set]
  split
  · rename_i here
    subst here
    rcases h with rfl | rfl | already
    · exact absurd rfl user
    · exact absurd rfl writable
    · exact already
  · rfl

namespace AddressSpace

variable {space after : AddressSpace} {va : VirtualAddress} {leaf : Leaf} {slot : Nat}

theorem slot_mem_footprint (h : space.walk va = .ok leaf) : leaf.slot ∈ space.footprint va := by
  have path := space.path_walk va
  rw [h] at path
  exact path.slot_mem

/-- A walk comes to the same end in every space with the same words on its way. -/
theorem walk_eq_of_word_eq (root : after.root = space.root)
    (same : ∀ slot ∈ space.footprint va, after.memory.word slot = space.memory.word slot) :
    after.walk va = space.walk va := by
  have ends := (space.path_walk va).ends_of_word_eq same
  rw [← root] at ends
  exact (after.walk_eq_iff_ends va _).2 ends

/-- Where the entry in one word is taken away, the addresses whose walks read it are not mapped. -/
theorem exists_walk_eq_error (root : after.root = space.root) (read : slot ∈ space.footprint va)
    (gone : (after.memory.entry slot).get .present = false)
    (same : ∀ other, other ≠ slot → after.memory.word other = space.memory.word other) :
    ∃ gap, after.walk va = .error gap := by
  obtain ⟨gap, ends⟩ := (space.path_walk va).exists_ends_of_mem read gone same
  rw [← root] at ends
  exact ⟨gap, (after.walk_eq_iff_ends va _).2 ends⟩

/-- The word of an edited leaf differs from the word before in the flag alone, and no other word
differs. -/
theorem testBit_word_store_set (h : space.walk va = .ok leaf) (f : Entry.Flag) (on : Bool)
    (other i : Nat) :
    testBit ((space.store { leaf with entry := leaf.entry.set f on }).memory.word other) i =
      if other = leaf.slot ∧ i = f.bit then on else testBit (space.memory.word other) i := by
  obtain ⟨entry, present⟩ := walk_eq_ok h
  have inside : 8 * leaf.slot < space.memory.byteCount :=
    Memory.lt_byteCount_of_present (entry ▸ present)
  change testBit ((space.memory.setWord leaf.slot (leaf.entry.set f on).bits).word other) i = _
  rw [Memory.word_setWord]
  by_cases here : leaf.slot = other
  · subst here
    rw [if_pos ⟨rfl, inside⟩, Entry.testBit_bits_set, entry]
    simp only [true_and, eq_comm]
    rfl
  · rw [if_neg fun both => here both.1, if_neg fun both => here both.1.symm]

/-- What setting a permission flag or the present flag of a leaf does, to memory and to the walks of all
addresses. One bit of the word of the leaf is set, and no other bit of memory changes. As long as the leaf
is present all addresses are mapped by the same words, with the same sizes and to the same physical
addresses as before. When it no longer is, the addresses whose walks read its word, at any level, are not
mapped, and all others are mapped as before, by the same entries. -/
theorem setLeafFlag_effect {f : Entry.Flag} (on : Bool) (mapped : space.walk va = .ok leaf)
    (flag : f = .user ∨ f = .writable ∨ f = .present) :
    ∃ after, space.setLeafFlag va f on =
        .ok ({ leaf with entry := after.memory.entry leaf.slot }, after) ∧
      after.root = space.root ∧ after.memory.byteCount = space.memory.byteCount ∧
      (∀ slot i, testBit (after.memory.word slot) i =
        if slot = leaf.slot ∧ i = f.bit then on else testBit (space.memory.word slot) i) ∧
      leaf.slot ∈ space.footprint va ∧
      ((after.memory.entry leaf.slot).get .present = true → ∀ other,
        after.walk other = (space.walk other).map
          (fun found => { found with entry := after.memory.entry found.slot }) ∧
        after.resolve other = space.resolve other) ∧
      ((after.memory.entry leaf.slot).get .present = false → ∀ other,
        (leaf.slot ∈ space.footprint other →
          (∃ gap, after.walk other = .error gap) ∧ after.resolve other = .ok none) ∧
        (leaf.slot ∉ space.footprint other →
          after.walk other = space.walk other ∧ after.resolve other = space.resolve other)) := by
  obtain ⟨entry, present⟩ := walk_eq_ok mapped
  have inside : 8 * leaf.slot < space.memory.byteCount :=
    Memory.lt_byteCount_of_present (entry ▸ present)
  let edited : Leaf := { leaf with entry := leaf.entry.set f on }
  have stored : (space.store edited).memory.entry leaf.slot = leaf.entry.set f on :=
    Memory.entry_setWord_self _ inside
  have root : (space.store edited).root = space.root := rfl
  have elsewhere : ∀ slot, slot ≠ leaf.slot →
      (space.store edited).memory.word slot = space.memory.word slot :=
    fun slot ne => Memory.word_setWord_of_ne (Ne.symm ne)
  refine ⟨space.store edited, ?_, root, Memory.byteCount_setWord,
    testBit_word_store_set mapped f on, slot_mem_footprint mapped, ?_, ?_⟩
  · rw [setLeafFlag, mapped, stored]
    rfl
  · intro still other
    rw [stored] at still
    have agree : space.Agree (space.store edited) := by
      apply agree_store
      rw [← entry]
      apply Entry.agree_set
      rcases flag with rfl | rfl | rfl
      · exact .inl rfl
      · exact .inr (.inl rfl)
      · rw [Entry.get_set_self] at still
        exact .inr (.inr (present.trans still.symm))
    exact ⟨agree.walk_eq other, agree.resolve_eq other⟩
  · intro gone other
    refine ⟨fun read => ?_, fun unread => ?_⟩
    · obtain ⟨gap, walked⟩ := exists_walk_eq_error root read gone elsewhere
      exact ⟨⟨gap, walked⟩, resolve_of_walk_eq_error walked⟩
    · have walked : (space.store edited).walk other = space.walk other :=
        walk_eq_of_word_eq root fun slot read => elsewhere slot fun same => unread (same ▸ read)
      exact ⟨walked, by rw [resolve, resolve, walked]⟩

/-- Two words of memory, which are entries of one table that is the table of all levels at once. -/
def twoEntries : AddressSpace :=
  ⟨⟨#[0x1, 0x1]⟩, .zero⟩

/-- When users get access to page zero there, the page behind it lies where it did. When page zero is
taken away, that page is gone as well, as its walk reads the same entry on the upper levels; an address
whose walk reads only the other entry is still mapped. -/
theorem setLeafFlag_effect_twoEntries :
    (∃ leaf after, twoEntries.setLeafFlag ⟨0⟩ .user true = .ok (leaf, after) ∧
      after.resolve ⟨0x1000⟩ = .ok (some ⟨0⟩)) ∧
    ∃ leaf after, twoEntries.setLeafFlag ⟨0⟩ .present false = .ok (leaf, after) ∧
      after.resolve ⟨0x1000⟩ = .ok none ∧
      after.walk ⟨0x8040201000⟩ = .ok ⟨1, ⟨1⟩, .size4K⟩ := by
  have mapped : twoEntries.walk ⟨0⟩ = .ok ⟨0, ⟨1⟩, .size4K⟩ := rfl
  have second : twoEntries.walk ⟨0x8040201000⟩ = .ok ⟨1, ⟨1⟩, .size4K⟩ := rfl
  constructor
  · obtain ⟨after, edited, -, -, bits, -, kept, -⟩ :=
      setLeafFlag_effect true mapped (.inl rfl)
    have still : (after.memory.entry 0).get .present = true := bits 0 0
    exact ⟨_, after, edited, (kept still ⟨0x1000⟩).2⟩
  · obtain ⟨after, edited, -, -, bits, -, -, lost⟩ :=
      setLeafFlag_effect false mapped (.inr (.inr rfl))
    have gone : (after.memory.entry 0).get .present = false := bits 0 0
    have unread : 0 ∉ twoEntries.footprint ⟨0x8040201000⟩ := by decide
    exact ⟨_, after, edited, ((lost gone ⟨0x1000⟩).1 (by decide)).2,
      ((lost gone ⟨0x8040201000⟩).2 unread).1.trans second⟩

end AddressSpace

end DebugMonitor.Paging
