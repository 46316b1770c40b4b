import DebugMonitor.Cpu.Context
import DebugMonitor.Proofs.Word.Layout

/-!
# Fixed and writable bits of the flag register

`Flags.Item.offset` gives the architectural places of the flags and of the I/O privilege level. The bits
between them are fixed by the processor: no writer of `Flags`, and neither arming nor disarming a
context, has a part in one, so whatever is written one after another, the fixed bits are those of the
register at the start. Each flag is the last one written, or the first one: `writes_keep_fixed`.
-/

namespace DebugMonitor.Cpu

open Word (testBit bitRange)

namespace Flags

/-- What the register holds for programs. -/
inductive Item where
  | flag (f : Flag)
  | privilege
deriving DecidableEq, Repr

/-- The lowest bit of each item. -/
def Item.offset : Item → Nat
  | flag .carry => 0
  | flag .parity => 2
  | flag .adjust => 4
  | flag .zero => 6
  | flag .sign => 7
  | flag .trap => 8
  | flag .interruptEnable => 9
  | flag .direction => 10
  | flag .overflow => 11
  | privilege => 12
  | flag .nestedTask => 14
  | flag .resume => 16
  | flag .alignmentCheck => 18
  | flag .virtualInterrupt => 19
  | flag .virtualInterruptPending => 20
  | flag .identification => 21

/-- How many bits each item has. -/
def Item.width : Item → Nat
  | flag _ => 1
  | privilege => 2

theorem Item.fits (n : Item) : n.offset + n.width ≤ 64 := by
  rcases n with f | _
  · cases f <;> decide
  · decide

def Item.field (n : Item) : Word.Field where
  offset := n.offset
  width := n.width
  fits := n.fits

/-- The items from the low bits up. -/
def Item.all : List Item :=
  [.flag .carry, .flag .parity, .flag .adjust, .flag .zero, .flag .sign, .flag .trap,
    .flag .interruptEnable, .flag .direction, .flag .overflow, .privilege, .flag .nestedTask,
    .flag .resume, .flag .alignmentCheck, .flag .virtualInterrupt, .flag .virtualInterruptPending,
    .flag .identification]

def layout : Word.Layout Item where
  field := Item.field
  names := Item.all
  complete := by
    rintro (f | _)
    · cases f <;> decide
    · decide
  ascending := by decide

/-- The bits that the processor fixes. -/
def Fixed (i : Nat) : Prop :=
  i = 1 ∨ i = 3 ∨ i = 5 ∨ i = 15 ∨ i = 17 ∨ 22 ≤ i

theorem Fixed.not_covers {i : Nat} (fixed : Fixed i) (n : Item) : ¬ n.field.Covers i := by
  rw [Fixed] at fixed
  cases n with
  | flag f => cases f <;> simp only [Item.field, Item.offset, Item.width, Word.Field.Covers] <;> omega
  | privilege =>
    simp only [Item.field, Item.offset, Item.width, Word.Field.Covers]
    omega

/-- A fresh register has bit 1 and no other. -/
theorem testBit_fresh (i : Nat) : testBit ({} : Flags).bits i = decide (i = 1) := by
  have bit : ({} : Flags).bits.toNat = 2 ^ 1 := rfl
  rw [Word.testBit_eq, bit, Nat.testBit_two_pow]
  simp only [eq_comm]

/-- An item as a number. -/
def read (r : Flags) : Item → Nat
  | .flag f => (r.get f).toNat
  | .privilege => r.privilege.toNat

theorem offset_flag (f : Flag) : (Item.flag f).field.offset = f.bit := by
  cases f <;> rfl

theorem read_eq_value (r : Flags) (n : Item) : r.read n = layout.value r.bits n := by
  cases n with
  | flag f =>
    rw [read, get, ← offset_flag]
    exact Word.Field.toNat_testBit (f := (Item.flag f).field) rfl r.bits
  | privilege => exact Word.Field.toNat_get privilegeField r.bits

theorem set_eq_assign (r : Flags) (f : Flag) (on : Bool) :
    layout.assign r.bits ⟨.flag f, on.toUInt64⟩ = .ok (r.set f on).bits := by
  have written := Word.Field.set_toUInt64 (f := (Item.flag f).field) rfl r.bits on
  rwa [offset_flag] at written

end Flags

namespace Context

/-- A write to the saved flags: of a flag or the privilege level, or of single-stepping. -/
inductive Edit where
  | flag (f : Flag) (on : Bool)
  | privilege (level : UInt64)
  | singleStep (on : Bool)
deriving DecidableEq, Repr

/-- The item that is written, with its value. -/
def Edit.assignment : Edit → Word.Assignment Flags.Item
  | flag f on => ⟨.flag f, on.toUInt64⟩
  | privilege level => ⟨.privilege, level⟩
  | singleStep on => ⟨.flag .trap, on.toUInt64⟩

def edit (c : Context) : Edit → Except Fault Context
  | .flag f on => .ok { c with flags := c.flags.set f on }
  | .privilege level => (c.flags.setPrivilege level).map fun flags => { c with flags }
  | .singleStep on => .ok (c.setSingleStep on)

/-- Makes writes one after another; one that fails leaves the context as it is. -/
def editAll (c : Context) (edits : List Edit) : Context :=
  Word.attemptAll edit c edits

theorem edit_eq_assign (c : Context) (x : Edit) :
    (c.edit x).map (·.flags.bits) = Flags.layout.assign c.flags.bits x.assignment := by
  cases x with
  | flag f on => exact (c.flags.set_eq_assign f on).symm
  | privilege level =>
    change _ = Flags.privilegeField.set c.flags.bits level
    rw [edit, Flags.setPrivilege]
    cases Flags.privilegeField.set c.flags.bits level <;> rfl
  | singleStep on => exact (c.flags.set_eq_assign .trap on).symm

theorem bits_editAll (c : Context) (edits : List Edit) :
    (c.editAll edits).flags.bits =
      Flags.layout.assignAll c.flags.bits (edits.map Edit.assignment) :=
  Word.Layout.word_attemptAll edit_eq_assign c edits

/-- Nothing but the flags is written. -/
theorem edit_eq_ok {c d : Context} {x : Edit} (h : c.edit x = .ok d) : d = { c with flags := d.flags } := by
  cases x with
  | flag f on =>
    cases h
    rfl
  | privilege level =>
    rw [edit] at h
    cases written : c.flags.setPrivilege level with
    | error f =>
      rw [written] at h
      cases h
    | ok flags =>
      rw [written] at h
      cases h
      rfl
  | singleStep on =>
    cases h
    rfl

theorem editAll_eq (c : Context) (edits : List Edit) :
    c.editAll edits = { c with flags := (c.editAll edits).flags } := by
  induction edits using List.reverseRecOn with
  | nil => rfl
  | append_singleton edits x ih =>
    rw [editAll, Word.attemptAll_concat, ← editAll]
    cases written : (c.editAll edits).edit x with
    | error f => exact ih
    | ok d =>
      have rest := edit_eq_ok written
      rw [ih] at rest
      exact rest

theorem testBit_editAll_of_fixed (c : Context) (edits : List Edit) {i : Nat} (fixed : Flags.Fixed i) :
    testBit (c.editAll edits).flags.bits i = testBit c.flags.bits i := by
  rw [bits_editAll]
  exact Flags.layout.testBit_assignAll _ _ fixed.not_covers

theorem testBit_setSingleStep (c : Context) (on : Bool) (i : Nat) :
    testBit (c.setSingleStep on).flags.bits i = if i = 8 then on else testBit c.flags.bits i := by
  have bits := Flags.testBit_bits_set c.flags .trap on i
  simp only [eq_comm (a := i)]
  exact bits

/-- The flags of a context after any writes, those that fail included. Nothing else of the context has
changed, and none of the fixed bits: from a fresh register bit 1 stays set and the other fixed bits
clear. Each item is the last value that was accepted for it, or what its bits held at the start. Arming
and disarming a context clears bit 8 and leaves all other bits as they were. -/
theorem writes_keep_fixed (c : Context) (edits : List Edit) :
    c.editAll edits = { c with flags := (c.editAll edits).flags } ∧
    (∀ i, Flags.Fixed i → testBit (c.editAll edits).flags.bits i = testBit c.flags.bits i) ∧
    (∀ n, (c.editAll edits).flags.read n =
      (Flags.layout.lastAccepted? n (edits.map Edit.assignment)).getD
        (bitRange c.flags.bits n.offset n.width)) ∧
    (c.flags = {} → ∀ i, Flags.Fixed i →
      testBit (c.editAll edits).flags.bits i = decide (i = 1)) ∧
    ∀ i, testBit ((c.setSingleStep true).setSingleStep false).flags.bits i =
      if i = 8 then false else testBit c.flags.bits i := by
  refine ⟨c.editAll_eq edits, fun i => c.testBit_editAll_of_fixed edits, ?items, ?fresh, ?disarmed⟩
  case items =>
    intro n
    rw [Flags.read_eq_value, bits_editAll]
    exact Flags.layout.value_assignAll _ _ n
  case fresh =>
    intro fresh i fixed
    rw [c.testBit_editAll_of_fixed edits fixed, fresh, Flags.testBit_fresh]
  case disarmed =>
    intro i
    rw [testBit_setSingleStep, testBit_setSingleStep]
    by_cases trap : i = 8
    · rw [if_pos trap, if_pos trap]
    · rw [if_neg trap, if_neg trap, if_neg trap]

/-- A privilege level that does not fit is lost, and the one before it stays. -/
theorem writes_keep_fixed_refused :
    let c := ({} : Context).editAll
      [.flag .carry true, .privilege 3, .privilege 4, .singleStep true, .flag .carry false]
    testBit c.flags.bits 1 = true ∧ testBit c.flags.bits 63 = false ∧ c.flags.read .privilege = 3 ∧
      c.flags.read (.flag .carry) = 0 := by
  intro c
  obtain ⟨-, -, items, fresh, -⟩ := writes_keep_fixed {}
    [.flag .carry true, .privilege 3, .privilege 4, .singleStep true, .flag .carry false]
  have fixed : Flags.Fixed 1 ∧ Flags.Fixed 63 := by
    simp only [Flags.Fixed]
    decide
  exact ⟨fresh rfl 1 fixed.1, fresh rfl 63 fixed.2, items .privilege, items (.flag .carry)⟩

end Context

end DebugMonitor.Cpu
