import DebugMonitor.Word.Field

/-!
# The flag register

Fifteen flags and the two-bit I/O privilege level, at their architectural positions. The other bits
are fixed by the processor: no operation here writes them, whatever word they were read from. A
fresh register has bit 1 set, which the processor always reads as one.
-/

namespace DebugMonitor.Cpu

inductive Flag where
  | carry
  | parity
  | adjust
  | zero
  | sign
  | trap
  | interruptEnable
  | direction
  | overflow
  | nestedTask
  | resume
  | alignmentCheck
  | virtualInterrupt
  | virtualInterruptPending
  | identification
deriving DecidableEq, Repr

namespace Flag

def all : List Flag :=
  [carry, parity, adjust, zero, sign, trap, interruptEnable, direction, overflow, nestedTask,
    resume, alignmentCheck, virtualInterrupt, virtualInterruptPending, identification]

def bit : Flag → Nat
  | carry => 0
  | parity => 2
  | adjust => 4
  | zero => 6
  | sign => 7
  | trap => 8
  | interruptEnable => 9
  | direction => 10
  | overflow => 11
  | nestedTask => 14
  | resume => 16
  | alignmentCheck => 18
  | virtualInterrupt => 19
  | virtualInterruptPending => 20
  | identification => 21

theorem bit_lt (f : Flag) : f.bit < 64 := by
  cases f <;> decide

end Flag

structure Flags where
  bits : UInt64 := 0x2
deriving DecidableEq, Repr

namespace Flags

def get (r : Flags) (f : Flag) : Bool :=
  Word.testBit r.bits f.bit

def set (r : Flags) (f : Flag) (on : Bool) : Flags :=
  ⟨Word.setFlag r.bits f.bit on⟩

/-- The field of the I/O privilege level. -/
def privilegeField : Word.Field := ⟨12, 2, by decide⟩

def privilege (r : Flags) : UInt64 :=
  privilegeField.get r.bits

def setPrivilege (r : Flags) (level : UInt64) : Except Fault Flags :=
  (privilegeField.set r.bits level).map Flags.mk

theorem testBit_bits_set (r : Flags) (f : Flag) (on : Bool) (i : Nat) :
    Word.testBit (r.set f on).bits i = if f.bit = i then on else Word.testBit r.bits i :=
  Word.testBit_setFlag f.bit_lt

@[simp] theorem get_set_self (r : Flags) (f : Flag) (on : Bool) : (r.set f on).get f = on :=
  Word.testBit_setFlag_self f.bit_lt

end Flags

end DebugMonitor.Cpu
