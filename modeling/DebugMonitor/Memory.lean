import DebugMonitor.Address

/-!
# Physical memory

Memory is a row of 64-bit words from physical address zero, so a page-table entry is one word and
an edit of it is one assignment. Bytes are a view of the words, least significant byte first.
Beyond its end memory reads as zero and drops what is written.
-/

namespace DebugMonitor

structure Memory where
  words : Array UInt64
deriving DecidableEq, Repr

namespace Memory

/-- Memory of `frames` frames of 4096 bytes, filled with zeros. -/
def zeroed (frames : Nat) : Memory :=
  ⟨Array.replicate (frames * 512) 0⟩

def byteCount (m : Memory) : Nat :=
  m.words.size * 8

def word (m : Memory) (i : Nat) : UInt64 :=
  m.words.getD i 0

def setWord (m : Memory) (i : Nat) (w : UInt64) : Memory :=
  ⟨m.words.setIfInBounds i w⟩

/-- The byte at physical address `a`. -/
def byte (m : Memory) (a : Nat) : UInt8 :=
  (m.word (a / 8) >>> UInt64.ofNat (a % 8 * 8)).toUInt8

def setByte (m : Memory) (a : Nat) (b : UInt8) : Memory :=
  let shift := UInt64.ofNat (a % 8 * 8)
  m.setWord (a / 8) (m.word (a / 8) &&& ~~~(0xff <<< shift) ||| b.toUInt64 <<< shift)

/-- Stores consecutive bytes from physical address `a` on. -/
def setBytes (m : Memory) (a : Nat) : List UInt8 → Memory
  | [] => m
  | b :: bs => (m.setByte a b).setBytes (a + 1) bs

variable {m : Memory} {i j : Nat} {w : UInt64}

@[simp] theorem byteCount_setWord : (m.setWord i w).byteCount = m.byteCount := by
  simp [setWord, byteCount]

@[simp] theorem word_of_byteCount_le (h : m.byteCount ≤ 8 * i) : m.word i = 0 := by
  have : m.words.size ≤ i := by
    rw [byteCount] at h
    omega
  simp [word, Array.getD, Nat.not_lt.2 this]

@[simp] theorem word_setWord_of_ne (h : i ≠ j) : (m.setWord i w).word j = m.word j := by
  simp [word, setWord, Array.getD_eq_getD_getElem?, h]

/-- A word inside memory reads back what was written. -/
@[simp] theorem word_setWord_self (h : 8 * i < m.byteCount) : (m.setWord i w).word i = w := by
  have : i < m.words.size := by
    rw [byteCount] at h
    omega
  simp [word, setWord, Array.getD_eq_getD_getElem?, this]

end Memory

end DebugMonitor
