import DebugMonitor.Address
import DebugMonitor.Word.Field

/-!
# Page-table entries

All levels of the page tables share one entry format: ten flags, two runs of bits left to the
operating system, a protection key, and in bits 12 to 51 the frame the entry refers to. In a table
entry the frame is the next table, in a leaf it is the start of the mapped page.

`frameBase` is the frame with the bits below a page size dropped: in the leaf of a large page those
bits have other meanings and are no part of the address.
-/

namespace DebugMonitor.Paging

structure Entry where
  bits : UInt64 := 0
deriving DecidableEq, Repr

namespace Entry

inductive Flag where
  | present
  | writable
  | user
  | writeThrough
  | cacheDisabled
  | accessed
  | dirty
  | largePage
  | global
  | noExecute
deriving DecidableEq, Repr

namespace Flag

def all : List Flag :=
  [present, writable, user, writeThrough, cacheDisabled, accessed, dirty, largePage, global,
    noExecute]

def bit : Flag → Nat
  | present => 0
  | writable => 1
  | user => 2
  | writeThrough => 3
  | cacheDisabled => 4
  | accessed => 5
  | dirty => 6
  | largePage => 7
  | global => 8
  | noExecute => 63

theorem bit_lt (f : Flag) : f.bit < 64 := by
  cases f <;> decide

end Flag

/-- The values of several bits in an entry. -/
inductive Part where
  | softwareLow
  | frame
  | softwareHigh
  | protectionKey
deriving DecidableEq, Repr

def Part.field : Part → Word.Field
  | softwareLow => ⟨9, 3, by decide⟩
  | frame => ⟨12, 40, by decide⟩
  | softwareHigh => ⟨52, 7, by decide⟩
  | protectionKey => ⟨59, 4, by decide⟩

def get (e : Entry) (f : Flag) : Bool :=
  Word.testBit e.bits f.bit

def set (e : Entry) (f : Flag) (on : Bool) : Entry :=
  ⟨Word.setFlag e.bits f.bit on⟩

def getPart (e : Entry) (p : Part) : UInt64 :=
  p.field.get e.bits

def setPart (e : Entry) (p : Part) (v : UInt64) : Except Fault Entry :=
  (p.field.set e.bits v).map Entry.mk

/-- The frame the entry refers to. -/
def physicalAddress (e : Entry) : PhysicalAddress :=
  ⟨e.getPart .frame <<< 12⟩

/-- Refers the entry to the frame of `pa`; the bits of `pa` inside the frame are dropped. -/
def setPhysicalAddress (e : Entry) (pa : PhysicalAddress) : Except Fault Entry :=
  e.setPart .frame (pa.word >>> 12)

/-- The frame with the bits below `bytes`, a power of two, cleared. -/
def frameBase (e : Entry) (bytes : UInt64) : Except Fault PhysicalAddress :=
  (Word.sub bytes 1).map fun low => ⟨e.physicalAddress.word &&& ~~~low⟩

theorem testBit_bits_set (e : Entry) (f : Flag) (on : Bool) (i : Nat) :
    Word.testBit (e.set f on).bits i = if f.bit = i then on else Word.testBit e.bits i :=
  Word.testBit_setFlag f.bit_lt

@[simp] theorem get_set_self (e : Entry) (f : Flag) (on : Bool) : (e.set f on).get f = on :=
  Word.testBit_setFlag_self f.bit_lt

theorem get_set_of_ne {e : Entry} {f g : Flag} {on : Bool} (h : f ≠ g) :
    (e.set f on).get g = e.get g := by
  have : f.bit ≠ g.bit := by
    cases f <;> cases g <;> first | exact absurd rfl h | decide
  rw [get, testBit_bits_set, if_neg this, get]

/-- No flag lies in the frame, so setting one refers the entry nowhere else. -/
@[simp] theorem physicalAddress_set (e : Entry) (f : Flag) (on : Bool) :
    (e.set f on).physicalAddress = e.physicalAddress := by
  have : (e.set f on).getPart .frame = e.getPart .frame := by
    refine Word.eq_of_testBit_eq fun i => ?_
    rw [getPart, getPart, Word.Field.testBit_get, Word.Field.testBit_get, testBit_bits_set]
    by_cases hi : i < (Part.field .frame).width
    · have hne : f.bit ≠ (Part.field .frame).offset + i := by
        have : i < 40 := hi
        have : (Part.field .frame).offset = 12 := rfl
        cases f <;> simp only [Flag.bit] <;> omega
      rw [if_neg hne]
    · simp [hi]
  rw [physicalAddress, physicalAddress, this]

end Entry

end DebugMonitor.Paging
