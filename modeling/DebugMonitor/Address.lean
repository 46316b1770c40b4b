import DebugMonitor.Word.Checked
import DebugMonitor.Text.Hex
import DebugMonitor.Page.Size

/-!
# Memory addresses

Virtual and physical addresses are different types over the same word, so that an address is never
read in the wrong space; a `MemoryAddress` is one whose space is left open. The part of an address
inside a page is its `offset`, and `alignDown` is the start of that page.
-/

namespace DebugMonitor

/-- The space an address belongs to. -/
inductive Space where
  | any
  | virtual
  | physical
deriving DecidableEq, Repr

def Space.label : Space → String
  | any => "MemoryAddress"
  | virtual => "VA"
  | physical => "PA"

structure Address (space : Space) where
  word : UInt64
deriving DecidableEq, Repr

abbrev MemoryAddress := Address .any

abbrev VirtualAddress := Address .virtual

abbrev PhysicalAddress := Address .physical

namespace Address

variable {space : Space}

def zero : Address space := ⟨0⟩

instance : Inhabited (Address space) where
  default := zero

instance : LT (Address space) where
  lt a b := a.word < b.word

instance : LE (Address space) where
  le a b := a.word ≤ b.word

instance (a b : Address space) : Decidable (a < b) :=
  inferInstanceAs (Decidable (a.word < b.word))

instance (a b : Address space) : Decidable (a ≤ b) :=
  inferInstanceAs (Decidable (a.word ≤ b.word))

instance : Ord (Address space) where
  compare a b := compare a.word b.word

/-! ### Pages -/

/-- The distance of the address from the start of its page. -/
def offset (size : PageSize) (a : Address space) : UInt64 :=
  a.word % size.bytes

/-- The start of the page the address lies in. -/
def alignDown (size : PageSize) (a : Address space) : Address space :=
  ⟨a.word - a.offset size⟩

/-- An address is aligned when it is the start of a page. -/
def IsAligned (size : PageSize) (a : Address space) : Prop :=
  a.offset size = 0

instance (size : PageSize) (a : Address space) : Decidable (a.IsAligned size) :=
  inferInstanceAs (Decidable (a.offset size = 0))

/-! ### Arithmetic -/

/-- The address `n` bytes further on, unless that lies outside the address space. -/
def add? (a : Address space) (n : UInt64) : Option (Address space) :=
  (Word.add? a.word n).map Address.mk

def add (a : Address space) (n : UInt64) : Except Fault (Address space) :=
  (Word.add a.word n).map Address.mk

/-- The number of bytes from `b` up to `a`. -/
def sub (a b : Address space) : Except Fault UInt64 :=
  Word.sub a.word b.word

/-! ### Text -/

instance : ToString (Address space) where
  toString a := "0x" ++ Text.hexPadded 16 a.word

/-- The address with the name of its space. -/
def describe (a : Address space) : String :=
  space.label ++ "(0x" ++ Text.upperHexPadded 16 a.word ++ ")"

/-! ### Lemmas -/

variable {a b : Address space} {n : UInt64} {size : PageSize}

theorem lt_iff : a < b ↔ a.word.toNat < b.word.toNat := UInt64.lt_iff_toNat_lt

theorem le_iff : a ≤ b ↔ a.word.toNat ≤ b.word.toNat := UInt64.le_iff_toNat_le

theorem le_trans {c : Address space} (h : a ≤ b) (h' : b ≤ c) : a ≤ c := UInt64.le_trans h h'

theorem lt_or_eq_of_le (h : a ≤ b) : a < b ∨ a = b := by
  rcases Nat.lt_or_eq_of_le (le_iff.1 h) with below | same
  · exact .inl (lt_iff.2 below)
  · exact .inr (congrArg mk (UInt64.toNat_inj.1 same))

theorem lt_trans {c : Address space} (h : a < b) (h' : b < c) : a < c := UInt64.lt_trans h h'

theorem toNat_offset : (a.offset size).toNat = a.word.toNat % size.bytes.toNat :=
  UInt64.toNat_mod ..

theorem toNat_alignDown :
    (a.alignDown size).word.toNat = a.word.toNat - a.word.toNat % size.bytes.toNat := by
  have h : a.offset size ≤ a.word := by
    rw [UInt64.le_iff_toNat_le, toNat_offset]
    exact Nat.mod_le _ _
  rw [alignDown, UInt64.toNat_sub_of_le _ _ h, toNat_offset]

theorem isAligned_iff_dvd : a.IsAligned size ↔ size.bytes.toNat ∣ a.word.toNat := by
  rw [IsAligned, ← UInt64.toNat_inj, toNat_offset, UInt64.toNat_zero, Nat.dvd_iff_mod_eq_zero]

theorem add?_eq_some_iff : a.add? n = some b ↔ b.word.toNat = a.word.toNat + n.toNat := by
  rw [← Word.add?_eq_some_iff]
  cases b
  simp [add?]

theorem add_eq_ok_iff : a.add n = .ok b ↔ b.word.toNat = a.word.toNat + n.toNat := by
  rw [← Word.add_eq_ok_iff]
  cases b
  cases h : Word.add a.word n <;> simp [add, h, Except.map]

theorem add_eq_error_iff {f : Fault} :
    a.add n = .error f ↔ f = .addOverflow ∧ UInt64.size ≤ a.word.toNat + n.toNat := by
  rw [← Word.add_eq_error_iff]
  cases h : Word.add a.word n <;> simp [add, h, Except.map]

theorem sub_eq_ok_iff : a.sub b = .ok n ↔ n.toNat + b.word.toNat = a.word.toNat :=
  Word.sub_eq_ok_iff

end Address

end DebugMonitor
