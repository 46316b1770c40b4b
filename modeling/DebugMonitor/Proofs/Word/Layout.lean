import DebugMonitor.Proofs.Word.Bits
import Mathlib.Data.List.Induction
import Mathlib.Data.List.Pairwise

/-!
# Layouts of words

A register or a table entry is a word with named fields. A `Layout` gives each name its field and lists
the names from the low bits up, so no two fields share a bit. An assignment stores a value in the field
of a name; a value that needs more bits than the field has is a fault, and the word stays as it is.

Whatever is assigned one after another, a name then has the last value that fitted it, or the number
that its bits held before (`value_assignAll`), and a bit outside all fields keeps its value
(`testBit_assignAll`). A layout whose fields leave out no bit tells all of the word: `toNat_eq_sum`.
-/

namespace DebugMonitor.Word

namespace Field

variable {f g : Field} {w v r : UInt64} {i : Nat}

/-- The bits of a field. -/
def Covers (f : Field) (i : Nat) : Prop :=
  f.offset ≤ i ∧ i < f.offset + f.width

instance (f : Field) (i : Nat) : Decidable (f.Covers i) :=
  inferInstanceAs (Decidable (f.offset ≤ i ∧ i < f.offset + f.width))

/-- One field ends where the other one starts, or before. -/
def Apart (f g : Field) : Prop :=
  f.offset + f.width ≤ g.offset ∨ g.offset + g.width ≤ f.offset

theorem Apart.symm (h : f.Apart g) : g.Apart f :=
  Or.symm h

theorem Apart.not_covers (h : f.Apart g) (covered : f.Covers i) : ¬ g.Covers i := by
  rw [Apart] at h
  rw [Covers] at covered ⊢
  omega

/-- The number that the bits of a field hold. -/
def value (f : Field) (w : UInt64) : Nat :=
  bitRange w f.offset f.width

theorem max_eq (f : Field) : f.max = 2 ^ f.width - 1 :=
  BitVec.toNat_allOnes

theorem toNat_le_max_iff : v.toNat ≤ f.max ↔ v.toNat < 2 ^ f.width := by
  have positive := Nat.two_pow_pos f.width
  rw [max_eq]
  omega

theorem value_set (h : f.set w v = .ok r) : f.value r = v.toNat := by
  rw [← get_of_set_eq_ok h, toNat_get]
  rfl

theorem testBit_set_of_not_covers (h : f.set w v = .ok r) (outside : ¬ f.Covers i) :
    testBit r i = testBit w i := by
  rw [testBit_set h]
  exact if_neg outside

/-- Writing a field leaves the others alone that have no bit in common with it. -/
theorem value_set_of_apart (h : g.set w v = .ok r) (apart : f.Apart g) : f.value r = f.value w := by
  have same : f.get r = f.get w := by
    refine eq_of_testBit_eq fun i => ?_
    rw [testBit_get, testBit_get]
    by_cases inside : i < f.width
    · have covered : f.Covers (f.offset + i) := ⟨Nat.le_add_right _ _, Nat.add_lt_add_left inside _⟩
      rw [testBit_set_of_not_covers h (apart.not_covers covered)]
    · rw [decide_eq_false inside, Bool.false_and, Bool.false_and]
  have values := congrArg UInt64.toNat same
  rwa [toNat_get, toNat_get] at values

/-- A flag is written like a field of one bit, whose value is the bit. -/
theorem set_toUInt64 (single : f.width = 1) (w : UInt64) (on : Bool) :
    f.set w on.toUInt64 = .ok (setFlag w f.offset on) := by
  have bound : f.offset < 64 := by
    have := f.fits
    omega
  have fits : on.toUInt64.toNat ≤ f.max := by
    rw [toNat_le_max_iff, single]
    cases on <;> decide
  obtain ⟨r, written⟩ : ∃ r, f.set w on.toUInt64 = .ok r := exists_set_eq_ok_iff.2 fits
  have same : r = setFlag w f.offset on := by
    refine eq_of_testBit_eq fun i => ?_
    rw [testBit_set written, testBit_setFlag bound]
    by_cases here : f.offset = i
    · subst here
      rw [if_pos ⟨Nat.le_refl _, by omega⟩, if_pos rfl, Nat.sub_self]
      cases on <;> rfl
    · rw [if_neg (by omega), if_neg here]
  rw [written, same]

theorem toNat_testBit (single : f.width = 1) (w : UInt64) :
    (testBit w f.offset).toNat = f.value w := by
  rw [value, bitRange, single, Nat.pow_one, testBit_eq, Nat.toNat_testBit]

end Field

/-- Makes changes one after another; one that fails leaves the state as it is. -/
def attemptAll {σ ε : Type} (change : σ → ε → Except Fault σ) (s : σ) (xs : List ε) : σ :=
  xs.foldl (fun s x => (change s x).toOption.getD s) s

theorem attemptAll_concat {σ ε : Type} (change : σ → ε → Except Fault σ) (s : σ) (xs : List ε) (x : ε) :
    attemptAll change s (xs ++ [x]) =
      (change (attemptAll change s xs) x).toOption.getD (attemptAll change s xs) := by
  rw [attemptAll, List.foldl_append]
  rfl

/-- A division of a word into named fields that share no bit, listed from the low bits up. -/
structure Layout (ι : Type) where
  field : ι → Field
  names : List ι
  complete : ∀ n, n ∈ names
  ascending : names.Pairwise fun a b => (field a).offset + (field a).width ≤ (field b).offset

/-- A value that is to be stored under a name. -/
structure Assignment (ι : Type) where
  name : ι
  value : UInt64

namespace Layout

variable {ι : Type} (l : Layout ι) {w r : UInt64} {a : Assignment ι}

def value (w : UInt64) (n : ι) : Nat :=
  (l.field n).value w

def assign (w : UInt64) (a : Assignment ι) : Except Fault UInt64 :=
  (l.field a.name).set w a.value

/-- Whether the field of the name has bits enough for the value. -/
def Fits (a : Assignment ι) : Prop :=
  a.value.toNat < 2 ^ (l.field a.name).width

instance (a : Assignment ι) : Decidable (l.Fits a) :=
  inferInstanceAs (Decidable (_ < _))

def assignAll (w : UInt64) (as : List (Assignment ι)) : UInt64 :=
  attemptAll l.assign w as

theorem assignAll_concat (w : UInt64) (as : List (Assignment ι)) (a : Assignment ι) :
    l.assignAll w (as ++ [a]) = (l.assign (l.assignAll w as) a).toOption.getD (l.assignAll w as) :=
  attemptAll_concat l.assign w as a

variable {l} in
/-- Changes that come down to assignments to one word of a state. -/
theorem word_attemptAll {σ ε : Type} {word : σ → UInt64} {change : σ → ε → Except Fault σ}
    {assignment : ε → Assignment ι}
    (changes : ∀ s x, (change s x).map word = l.assign (word s) (assignment x)) (s : σ) (xs : List ε) :
    word (attemptAll change s xs) = l.assignAll (word s) (xs.map assignment) := by
  induction xs using List.reverseRecOn with
  | nil => rfl
  | append_singleton xs x ih =>
    rw [List.map_append, List.map_singleton, assignAll_concat, attemptAll_concat, ← ih, ← changes]
    cases change (attemptAll change s xs) x <;> rfl

theorem exists_assign_eq_ok_iff : (∃ r, l.assign w a = .ok r) ↔ l.Fits a :=
  Field.exists_set_eq_ok_iff.trans Field.toNat_le_max_iff

theorem assign_eq_error (unfit : ¬ l.Fits a) :
    l.assign w a = .error (.valueOutOfBounds (2 ^ (l.field a.name).width - 1)) := by
  have above : (l.field a.name).max < a.value.toNat :=
    Nat.not_le.1 fun h => unfit (Field.toNat_le_max_iff.1 h)
  rw [assign, Field.set_eq_error above, Field.max_eq]

theorem apart_of_ne {m n : ι} (ne : m ≠ n) : (l.field m).Apart (l.field n) := by
  have symmetric : Std.Symm fun m n => (l.field m).Apart (l.field n) :=
    ⟨fun _ _ h => h.symm⟩
  have pairs : l.names.Pairwise fun m n => (l.field m).Apart (l.field n) :=
    l.ascending.imp Or.inl
  exact pairs.forall (l.complete m) (l.complete n) ne

theorem value_assign_self (h : l.assign w a = .ok r) : l.value r a.name = a.value.toNat :=
  Field.value_set h

theorem value_assign_of_ne {n : ι} (h : l.assign w a = .ok r) (ne : n ≠ a.name) :
    l.value r n = l.value w n :=
  Field.value_set_of_apart h (l.apart_of_ne ne)

section Sequences

variable [DecidableEq ι]

/-- The value that an assignment gives to a name, if it is about this name and succeeds. -/
def accepted? (n : ι) (a : Assignment ι) : Option Nat :=
  if a.name = n ∧ l.Fits a then some a.value.toNat else none

/-- The last of the values that a sequence of assignments gives to a name. -/
def lastAccepted? (n : ι) (as : List (Assignment ι)) : Option Nat :=
  (as.filterMap (l.accepted? n)).getLast?

theorem value_assign (w : UInt64) (a : Assignment ι) (n : ι) :
    l.value ((l.assign w a).toOption.getD w) n = (l.accepted? n a).getD (l.value w n) := by
  rw [accepted?]
  by_cases fits : l.Fits a
  · obtain ⟨r, written⟩ := l.exists_assign_eq_ok_iff.2 fits
    rw [written]
    by_cases here : a.name = n
    · subst here
      rw [if_pos ⟨rfl, fits⟩]
      exact l.value_assign_self written
    · rw [if_neg fun both => here both.1]
      exact l.value_assign_of_ne written (Ne.symm here)
  · rw [l.assign_eq_error fits, if_neg fun both => fits both.2]
    rfl

/-- After any assignments a name has the last value that was accepted for it, or its first one. -/
theorem value_assignAll (w : UInt64) (as : List (Assignment ι)) (n : ι) :
    l.value (l.assignAll w as) n = (l.lastAccepted? n as).getD (l.value w n) := by
  induction as using List.reverseRecOn with
  | nil => rfl
  | append_singleton as a ih =>
    rw [assignAll_concat, value_assign, lastAccepted?, List.filterMap_append]
    cases accepted : l.accepted? n a with
    | none =>
      rw [List.filterMap_cons_none accepted, List.filterMap_nil, List.append_nil]
      exact ih
    | some v =>
      rw [List.filterMap_cons_some accepted, List.filterMap_nil, List.getLast?_concat]
      rfl

end Sequences

/-- The bits that belong to no field are the same after any assignments. -/
theorem testBit_assignAll (w : UInt64) (as : List (Assignment ι)) {i : Nat}
    (outside : ∀ n, ¬ (l.field n).Covers i) : testBit (l.assignAll w as) i = testBit w i := by
  induction as using List.reverseRecOn with
  | nil => rfl
  | append_singleton as a ih =>
    rw [assignAll_concat]
    cases written : l.assign (l.assignAll w as) a with
    | error f => exact ih
    | ok r => exact (Field.testBit_set_of_not_covers written (outside a.name)).trans ih

/-! ### Layouts without gaps -/

/-- The fields of the names follow one another from bit `low` up to the last bit. -/
def Tiles (low : Nat) : List ι → Prop
  | [] => low = 64
  | n :: ns => (l.field n).offset = low ∧ Tiles (low + (l.field n).width) ns

/-- The word of the given numbers, each at the place of its field. -/
def compose (values : ι → Nat) : List ι → Nat
  | [] => 0
  | n :: ns => values n * 2 ^ (l.field n).offset + compose values ns

theorem mod_add_compose (w : UInt64) (ns : List ι) {low : Nat} (tiles : l.Tiles low ns) :
    w.toNat % 2 ^ low + l.compose (l.value w) ns = w.toNat := by
  induction ns generalizing low with
  | nil =>
    rw [tiles]
    exact Nat.mod_eq_of_lt w.toNat_lt
  | cons n ns ih =>
    obtain ⟨rfl, rest⟩ := tiles
    have split : w.toNat % 2 ^ ((l.field n).offset + (l.field n).width) =
        w.toNat % 2 ^ (l.field n).offset + 2 ^ (l.field n).offset * l.value w n := by
      rw [Nat.pow_add, Nat.mod_mul]
      rfl
    have above := ih rest
    rw [split, Nat.mul_comm] at above
    rw [compose, ← Nat.add_assoc]
    exact above

/-- A layout without a gap tells all of the word. -/
theorem toNat_eq_compose (tiles : l.Tiles 0 l.names) (w : UInt64) :
    w.toNat = l.compose (l.value w) l.names := by
  have parts := l.mod_add_compose w l.names tiles
  rwa [Nat.pow_zero, Nat.mod_one, Nat.zero_add, eq_comm] at parts

end Layout

end DebugMonitor.Word
