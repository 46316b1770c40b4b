import DebugMonitor.Proofs.Paging.Resolution
import DebugMonitor.Proofs.Word.Layout
import Mathlib.Order.Bounds.Defs

/-!
# The format of page-table entries

`Entry.Item.offset` and `Entry.Item.width` are the picture of an entry in the processor's manual:
fourteen fields that fill the word. The readers and writers of `Entry` are a layout of this shape. What
a writer stores is read back, it has no part in the other fields, and a value that its field cannot hold
is a fault (`format_laws`). The frame is written as a physical address, whose low bits are dropped and
which must lie below the end of the 52-bit space.
-/

namespace DebugMonitor.Paging.Entry

open Word (testBit bitRange)

/-- What an entry is made of. -/
inductive Item where
  | flag (f : Flag)
  | part (p : Part)
deriving DecidableEq, Repr

/-- The lowest bit of each item. -/
def Item.offset : Item → Nat
  | flag .present => 0
  | flag .writable => 1
  | flag .user => 2
  | flag .writeThrough => 3
  | flag .cacheDisabled => 4
  | flag .accessed => 5
  | flag .dirty => 6
  | flag .largePage => 7
  | flag .global => 8
  | part .softwareLow => 9
  | part .frame => 12
  | part .softwareHigh => 52
  | part .protectionKey => 59
  | flag .noExecute => 63

/-- How many bits each item has. -/
def Item.width : Item → Nat
  | flag _ => 1
  | part .softwareLow => 3
  | part .frame => 40
  | part .softwareHigh => 7
  | part .protectionKey => 4

theorem Item.fits (n : Item) : n.offset + n.width ≤ 64 := by
  rcases n with f | p
  · cases f <;> decide
  · cases p <;> decide

def Item.field (n : Item) : Word.Field where
  offset := n.offset
  width := n.width
  fits := n.fits

/-- The items from the low bits up. -/
def Item.all : List Item :=
  [.flag .present, .flag .writable, .flag .user, .flag .writeThrough, .flag .cacheDisabled,
    .flag .accessed, .flag .dirty, .flag .largePage, .flag .global, .part .softwareLow, .part .frame,
    .part .softwareHigh, .part .protectionKey, .flag .noExecute]

def layout : Word.Layout Item where
  field := Item.field
  names := Item.all
  complete := by
    rintro (f | p)
    · cases f <;> decide
    · cases p <;> decide
  ascending := by decide

theorem tiles_layout : layout.Tiles 0 Item.all := by
  simp only [Word.Layout.Tiles, Item.all, layout, Item.field, Item.offset, Item.width, Nat.reduceAdd,
    and_self]

/-- An item as a number. -/
def read (e : Entry) : Item → Nat
  | .flag f => (e.get f).toNat
  | .part p => (e.getPart p).toNat

/-- A call of one of the writers. -/
inductive Edit where
  | flag (f : Flag) (on : Bool)
  | part (p : Part) (v : UInt64)
  | address (pa : PhysicalAddress)
deriving DecidableEq, Repr

/-- The item that a writer is for, with the value for it. -/
def Edit.assignment : Edit → Word.Assignment Item
  | flag f on => ⟨.flag f, on.toUInt64⟩
  | part p v => ⟨.part p, v⟩
  | address pa => ⟨.part .frame, pa.word >>> 12⟩

def edit (e : Entry) : Edit → Except Fault Entry
  | .flag f on => .ok (e.set f on)
  | .part p v => e.setPart p v
  | .address pa => e.setPhysicalAddress pa

/-- Calls writers one after another; a writer that fails leaves the entry as it is. -/
def editAll (e : Entry) (edits : List Edit) : Entry :=
  Word.attemptAll edit e edits

theorem offset_flag (f : Flag) : (Item.flag f).field.offset = f.bit := by
  cases f <;> rfl

@[simp] theorem field_part (p : Part) : (Item.part p).field = p.field := by
  cases p <;> rfl

theorem read_eq_value (e : Entry) (n : Item) : e.read n = layout.value e.bits n := by
  cases n with
  | flag f =>
    rw [read, get, ← offset_flag]
    exact Word.Field.toNat_testBit (f := (Item.flag f).field) rfl e.bits
  | part p =>
    rw [read, getPart, Word.Field.toNat_get, ← field_part]
    rfl

theorem setPart_eq_assign (e : Entry) (p : Part) (v : UInt64) :
    (e.setPart p v).map bits = layout.assign e.bits ⟨.part p, v⟩ := by
  change _ = (Item.part p).field.set e.bits v
  rw [setPart, field_part]
  cases p.field.set e.bits v <;> rfl

theorem edit_eq_assign (e : Entry) (x : Edit) :
    (e.edit x).map bits = layout.assign e.bits x.assignment := by
  cases x with
  | flag f on =>
    have written := Word.Field.set_toUInt64 (f := (Item.flag f).field) rfl e.bits on
    rw [offset_flag] at written
    exact written.symm
  | part p v => exact e.setPart_eq_assign p v
  | address pa => exact e.setPart_eq_assign .frame _

section Writers

variable {e r : Entry} {x : Edit}

theorem assign_of_edit (h : e.edit x = .ok r) : layout.assign e.bits x.assignment = .ok r.bits := by
  rw [← edit_eq_assign, h]
  rfl

theorem exists_edit_eq_ok_iff : (∃ r, e.edit x = .ok r) ↔ layout.Fits x.assignment := by
  rw [← Word.Layout.exists_assign_eq_ok_iff, ← edit_eq_assign]
  cases e.edit x <;> simp [Except.map]

theorem edit_eq_error (unfit : ¬ layout.Fits x.assignment) :
    e.edit x = .error (.valueOutOfBounds (2 ^ x.assignment.name.width - 1)) := by
  have refused := layout.assign_eq_error unfit (w := e.bits)
  rw [← edit_eq_assign] at refused
  cases written : e.edit x with
  | error f =>
    rw [written] at refused
    cases refused
    rfl
  | ok r =>
    rw [written] at refused
    cases refused

theorem read_edit_self (h : e.edit x = .ok r) : r.read x.assignment.name = x.assignment.value.toNat := by
  rw [read_eq_value]
  exact layout.value_assign_self (assign_of_edit h)

theorem read_edit_of_ne {n : Item} (h : e.edit x = .ok r) (ne : n ≠ x.assignment.name) :
    r.read n = e.read n := by
  rw [read_eq_value, read_eq_value]
  exact layout.value_assign_of_ne (assign_of_edit h) ne

theorem testBit_edit {i : Nat} (h : e.edit x = .ok r) (outside : ¬ x.assignment.name.field.Covers i) :
    testBit r.bits i = testBit e.bits i :=
  Word.Field.testBit_set_of_not_covers (assign_of_edit h) outside

/-- After any calls of writers an item has the last value that was accepted for it, or its first one. -/
theorem read_editAll (e : Entry) (edits : List Edit) (n : Item) :
    (e.editAll edits).read n =
      (layout.lastAccepted? n (edits.map Edit.assignment)).getD (e.read n) := by
  rw [read_eq_value, read_eq_value, ← Word.Layout.value_assignAll]
  exact congrArg (layout.value · n) (Word.Layout.word_attemptAll edit_eq_assign e edits)

end Writers

/-! ### The frame -/

theorem fits_address_iff (pa : PhysicalAddress) :
    layout.Fits (Edit.address pa).assignment ↔ pa.word.toNat < 2 ^ 52 := by
  change (pa.word >>> 12).toNat < 2 ^ 40 ↔ _
  rw [UInt64.toNat_shiftRight, Nat.shiftRight_eq_div_pow]
  change pa.word.toNat / 2 ^ 12 < 2 ^ 40 ↔ _
  omega

theorem toNat_physicalAddress_setPhysicalAddress {e r : Entry} {pa : PhysicalAddress}
    (h : e.setPhysicalAddress pa = .ok r) :
    r.physicalAddress.word.toNat = pa.word.toNat / 4096 * 4096 := by
  have frame : bitRange r.bits 12 40 = (pa.word >>> 12).toNat :=
    (r.read_eq_value (.part .frame)).symm.trans (read_edit_self (x := .address pa) h)
  rw [toNat_physicalAddress, frame, UInt64.toNat_shiftRight, Nat.shiftRight_eq_div_pow]
  rfl

theorem isGreatest_frameBase (e : Entry) {n : UInt64} {k : Nat} (power : n.toNat = 2 ^ k) :
    ∃ base, e.frameBase n = .ok base ∧
      IsGreatest {m | n.toNat ∣ m ∧ m ≤ e.physicalAddress.word.toNat} base.word.toNat := by
  refine ⟨_, e.frameBase_of_one_le (Word.one_le_of_two_pow power), ?_, ?_⟩
  · rw [Word.toNat_and_not_sub_one power, power]
    exact ⟨Nat.dvd_mul_left _ _, Nat.div_mul_le_self _ _⟩
  · rintro m ⟨⟨q, rfl⟩, below⟩
    rw [Word.toNat_and_not_sub_one power, power, Nat.mul_comm]
    rw [power, Nat.mul_comm] at below
    exact Nat.mul_le_mul_right _ ((Nat.le_div_iff_mul_le (Nat.two_pow_pos k)).2 below)

/-- Bit 12 is no part of the address of a large page. -/
example : (⟨0x40001081⟩ : Entry).frameBase 0x200000 = .ok ⟨0x40000000⟩ := by decide

/-- The format of an entry, whatever its bits are. Each item is in the bits of its field, and together
the items make up the word. A writer is accepted exactly if its value fits; its item then has the value
and no bit outside the field has changed; otherwise it fails and nothing has changed. After any calls
each item has the last value accepted for it. A physical address is accepted below `2 ^ 52` and is kept
without its low twelve bits, and the frame of a page is the greatest multiple of its size in it. -/
theorem format_laws (e : Entry) :
    (∀ n, e.read n = bitRange e.bits n.offset n.width) ∧
    e.bits.toNat = layout.compose e.read Item.all ∧
    (∀ x, (∃ r, e.edit x = .ok r) ↔ layout.Fits x.assignment) ∧
    (∀ x r, e.edit x = .ok r → r.read x.assignment.name = x.assignment.value.toNat ∧
      ∀ i, ¬ x.assignment.name.field.Covers i → testBit r.bits i = testBit e.bits i) ∧
    (∀ x, ¬ layout.Fits x.assignment →
      e.edit x = .error (.valueOutOfBounds (2 ^ x.assignment.name.width - 1)) ∧
      e.editAll [x] = e) ∧
    (∀ edits n, (e.editAll edits).read n =
      (layout.lastAccepted? n (edits.map Edit.assignment)).getD (e.read n)) ∧
    (∀ pa, ((∃ r, e.setPhysicalAddress pa = .ok r) ↔ pa.word.toNat < 2 ^ 52) ∧
      ∀ r, e.setPhysicalAddress pa = .ok r →
        r.physicalAddress.word.toNat = pa.word.toNat / 4096 * 4096 ∧
        ∀ n, n ≠ .part .frame → r.read n = e.read n) ∧
    ∀ (n : UInt64) (k : Nat), n.toNat = 2 ^ k → ∃ base, e.frameBase n = .ok base ∧
      IsGreatest {m | n.toNat ∣ m ∧ m ≤ e.physicalAddress.word.toNat} base.word.toNat := by
  refine ⟨e.read_eq_value, ?word, fun x => exists_edit_eq_ok_iff, ?accepted, ?refused, e.read_editAll,
    ?address, fun n k => e.isGreatest_frameBase⟩
  case word =>
    have values : e.read = layout.value e.bits := funext e.read_eq_value
    rw [values]
    exact layout.toNat_eq_compose tiles_layout e.bits
  case accepted => exact fun x r written => ⟨read_edit_self written, fun i => testBit_edit written⟩
  case refused =>
    intro x unfit
    have failed := edit_eq_error (e := e) unfit
    refine ⟨failed, ?_⟩
    change (e.edit x).toOption.getD e = e
    rw [failed]
    rfl
  case address =>
    refine fun pa => ⟨?_, fun r written => ⟨toNat_physicalAddress_setPhysicalAddress written, ?_⟩⟩
    · exact (exists_edit_eq_ok_iff (x := .address pa)).trans (fits_address_iff pa)
    · exact fun n ne => read_edit_of_ne (x := .address pa) written ne

/-- The last frame of the space goes into an entry beside its highest flag; the address behind it is
refused. -/
theorem format_laws_lastFrame :
    (∃ r, setPhysicalAddress ⟨0x8000000000000001⟩ ⟨0xffffffffffabc⟩ = .ok r ∧
      r.physicalAddress.word.toNat = 0xffffffffff000 ∧ r.read (.flag .noExecute) = 1 ∧
      r.read (.part .softwareHigh) = 0) ∧
    ¬ ∃ r, setPhysicalAddress ⟨0x8000000000000001⟩ ⟨0x10000000000000⟩ = .ok r := by
  obtain ⟨-, -, -, -, -, -, address, -⟩ := format_laws ⟨0x8000000000000001⟩
  obtain ⟨accepted, kept⟩ := address ⟨0xffffffffffabc⟩
  obtain ⟨r, written⟩ := accepted.2 (by decide)
  obtain ⟨frame, others⟩ := kept r written
  have flag : read ⟨0x8000000000000001⟩ (.flag .noExecute) = 1 := by decide
  have software : read ⟨0x8000000000000001⟩ (.part .softwareHigh) = 0 := by decide
  refine ⟨⟨r, written, frame, ?_, ?_⟩, fun taken => ?_⟩
  · rw [others (.flag .noExecute) nofun, flag]
  · rw [others (.part .softwareHigh) nofun, software]
  · exact absurd ((address ⟨0x10000000000000⟩).1.1 taken) (by decide)

end DebugMonitor.Paging.Entry
