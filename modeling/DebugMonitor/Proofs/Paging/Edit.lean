import DebugMonitor.Proofs.Paging.Agreement

/-!
# Replacing the permissions of leaves

`permit` is what replacing the permissions of one page does to an address space: the leaf that maps
the page is looked up and written back. Since the edited memory agrees with the one before, pages
that are edited one after another are all looked up as at the beginning, even where they share a
leaf or where a leaf is an entry on the route of another page. So the edits of a list of pages add
up: `entry_permitAll_of_leafAt` and its counterpart say what every word of memory is afterwards, in
terms of the walks before.
-/

namespace DebugMonitor

open Paging Command

/-- A present entry is not zero, so it lies inside memory. -/
theorem Memory.lt_byteCount_of_present {m : Memory} {slot : Nat}
    (h : (m.entry slot).get .present = true) : 8 * slot < m.byteCount := by
  rcases Nat.lt_or_ge (8 * slot) m.byteCount with inside | beyond
  · exact inside
  · simp only [entry, word_of_byteCount_le beyond] at h
    exact absurd h (by decide)

theorem Memory.entry_setWord_self {m : Memory} {slot : Nat} (e : Entry)
    (h : 8 * slot < m.byteCount) : (m.setWord slot e.bits).entry slot = e := by
  simp [entry, h]

theorem Memory.entry_setWord_of_ne {m : Memory} {i j : Nat} (e : Entry) (h : i ≠ j) :
    (m.setWord i e.bits).entry j = m.entry j := by
  simp [entry, h]

namespace Paging.AddressSpace

/-- The word in `slot` is where the walk of `va` ends as a present leaf. -/
def LeafAt (space : AddressSpace) (va : VirtualAddress) (slot : Nat) : Prop :=
  ∃ leaf, space.walk va = .ok leaf ∧ leaf.slot = slot

/-- The space after the permissions of one page were replaced, if it is mapped. -/
def permit (p : Permission) (space : AddressSpace) (page : VirtualAddress) : AddressSpace :=
  match space.walk page with
  | .ok leaf => space.store { leaf with entry := p.apply leaf.entry }
  | .error _ => space

/-- The space after the permissions of several pages were replaced, one after another. -/
def permitAll (p : Permission) (space : AddressSpace) (pages : List VirtualAddress) :
    AddressSpace :=
  pages.foldl (permit p) space

variable {p : Permission} {space : AddressSpace} {page va : VirtualAddress} {slot : Nat}
variable {pages : List VirtualAddress}

theorem LeafAt.present (h : space.LeafAt va slot) :
    (space.memory.entry slot).get .present = true := by
  obtain ⟨leaf, hwalk, rfl⟩ := h
  obtain ⟨entry, present⟩ := walk_eq_ok hwalk
  rwa [← entry]

/-- Spaces that agree have the same leaves. -/
theorem Agree.leafAt_iff {s t : AddressSpace} (h : Agree s t) :
    t.LeafAt va slot ↔ s.LeafAt va slot := by
  unfold LeafAt
  rw [h.walk_eq]
  cases s.walk va <;> simp [Except.map]

/-- Writing back an entry that agrees with the one in its slot leaves an agreeing space. -/
theorem agree_store {leaf : Leaf} (h : (space.memory.entry leaf.slot).Agree leaf.entry) :
    space.Agree (space.store leaf) :=
  ⟨rfl, Memory.agree_setWord _ h⟩

/-- Replacing the permissions of a leaf leaves an agreeing space. -/
theorem agree_store_apply (p : Permission) {leaf : Leaf} (h : space.walk va = .ok leaf) :
    space.Agree (space.store { leaf with entry := p.apply leaf.entry }) := by
  apply agree_store
  rw [← (walk_eq_ok h).1]
  exact Entry.agree_apply p leaf.entry

theorem agree_permit (p : Permission) (space : AddressSpace) (page : VirtualAddress) :
    space.Agree (space.permit p page) := by
  rw [permit]
  split
  · rename_i hwalk
    exact agree_store_apply p hwalk
  · exact .refl _

@[simp] theorem byteCount_permit :
    (space.permit p page).memory.byteCount = space.memory.byteCount := by
  rw [permit]
  split
  · simp [store]
  · rfl

/-- One edit replaces the permissions of the leaf of its page. -/
theorem entry_permit_of_leafAt (h : space.LeafAt page slot) :
    (space.permit p page).memory.entry slot = p.apply (space.memory.entry slot) := by
  have inside := Memory.lt_byteCount_of_present h.present
  obtain ⟨leaf, hwalk, rfl⟩ := h
  simp only [permit, hwalk, store]
  rw [Memory.entry_setWord_self _ inside, (walk_eq_ok hwalk).1]

/-- One edit leaves every other word alone. -/
theorem entry_permit_of_not_leafAt (h : ¬ space.LeafAt page slot) :
    (space.permit p page).memory.entry slot = space.memory.entry slot := by
  rw [permit]
  split
  · rename_i leaf hwalk
    exact Memory.entry_setWord_of_ne _ fun same => h ⟨leaf, hwalk, same⟩
  · rfl

/-! ### Several pages -/

theorem agree_permitAll (p : Permission) (space : AddressSpace) (pages : List VirtualAddress) :
    space.Agree (space.permitAll p pages) := by
  induction pages generalizing space with
  | nil => exact .refl _
  | cons page rest ih => exact (agree_permit p space page).trans (ih (space.permit p page))

@[simp] theorem byteCount_permitAll :
    (space.permitAll p pages).memory.byteCount = space.memory.byteCount := by
  induction pages generalizing space with
  | nil => rfl
  | cons page rest ih => exact ih.trans byteCount_permit

/-- A word that is no leaf of the pages is left alone. -/
theorem entry_permitAll_of_not_leafAt (h : ∀ page ∈ pages, ¬ space.LeafAt page slot) :
    (space.permitAll p pages).memory.entry slot = space.memory.entry slot := by
  induction pages generalizing space with
  | nil => rfl
  | cons page rest ih =>
    have here : ¬ space.LeafAt page slot := h page List.mem_cons_self
    have later : ∀ other ∈ rest, ¬ (space.permit p page).LeafAt other slot := by
      intro other member leaf
      exact h other (List.mem_cons_of_mem _ member) ((agree_permit p space page).leafAt_iff.1 leaf)
    exact (ih later).trans (entry_permit_of_not_leafAt here)

/-- The leaves that the pages have before the first edit get the permissions, each once or more. -/
theorem entry_permitAll_of_leafAt (h : ∃ page ∈ pages, space.LeafAt page slot) :
    (space.permitAll p pages).memory.entry slot = p.apply (space.memory.entry slot) := by
  induction pages generalizing space with
  | nil => simp at h
  | cons page rest ih =>
    have agree := agree_permit p space page
    by_cases later : ∃ other ∈ rest, (space.permit p page).LeafAt other slot
    · rw [permitAll, List.foldl_cons, ← permitAll, ih later]
      by_cases here : space.LeafAt page slot
      · rw [entry_permit_of_leafAt here, Entry.apply_apply]
      · rw [entry_permit_of_not_leafAt here]
    · -- The first page is then the only one whose leaf the word is.
      have here : space.LeafAt page slot := by
        obtain ⟨other, member, leaf⟩ := h
        rcases List.mem_cons.1 member with rfl | member
        · exact leaf
        · exact absurd ⟨other, member, agree.leafAt_iff.2 leaf⟩ later
      rw [permitAll, List.foldl_cons, ← permitAll,
        entry_permitAll_of_not_leafAt fun other member leaf => later ⟨other, member, leaf⟩,
        entry_permit_of_leafAt here]

/-- After the edits the walk of each of the pages ends as before, but for the permissions of its
leaf. -/
theorem walk_permitAll_of_mem (member : page ∈ pages) :
    (space.permitAll p pages).walk page =
      (space.walk page).map fun leaf => { leaf with entry := p.apply leaf.entry } := by
  rw [(agree_permitAll p space pages).walk_eq page]
  cases hwalk : space.walk page with
  | error gap => rfl
  | ok leaf =>
    have edited : (space.permitAll p pages).memory.entry leaf.slot = p.apply leaf.entry := by
      rw [(walk_eq_ok hwalk).1]
      exact entry_permitAll_of_leafAt ⟨page, member, leaf, hwalk, rfl⟩
    exact congrArg (fun entry => Except.ok { leaf with entry }) edited

/-- A word that changed is a leaf of one of the pages. -/
theorem exists_leafAt_of_word_ne
    (h : (space.permitAll p pages).memory.word slot ≠ space.memory.word slot) :
    ∃ page ∈ pages, space.LeafAt page slot := by
  apply Classical.byContradiction
  intro none
  apply h
  apply congrArg Entry.bits
  exact entry_permitAll_of_not_leafAt fun page member leaf => none ⟨page, member, leaf⟩

end Paging.AddressSpace

end DebugMonitor
