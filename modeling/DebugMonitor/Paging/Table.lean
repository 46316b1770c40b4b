import DebugMonitor.Paging.Entry

/-!
# Page tables

A page table fills one frame with 512 entries. `Level` names the four levels of the hierarchy, and
`Level.index` is the entry that an address selects at a level: nine bits of the address, so every
index is within the table by its type.
-/

namespace DebugMonitor.Paging

/-- The number of entries in a table. -/
abbrev entryCount : Nat := 512

structure Table where
  entries : Vector Entry entryCount

namespace Table

def zeroed : Table :=
  ⟨Vector.replicate entryCount {}⟩

def get (t : Table) (i : Nat) : Except Fault Entry :=
  if h : i < entryCount then .ok (t.entries.get ⟨i, h⟩)
  else .error (.indexOutOfBounds entryCount i)

def set (t : Table) (i : Nat) (e : Entry) : Except Fault Table :=
  if h : i < entryCount then .ok ⟨t.entries.set i e h⟩
  else .error (.indexOutOfBounds entryCount i)

/-- Changes one entry in place. -/
def modify (t : Table) (i : Nat) (f : Entry → Entry) : Except Fault Table := do
  t.set i (f (← t.get i))

/-- The entries that are not zero, with their indices, in ascending order. -/
def used (t : Table) : List (Nat × Entry) :=
  (t.entries.toList.zipIdx.filter (·.1.bits ≠ 0)).map Prod.swap

end Table

/-- The levels of the hierarchy, from the root down. -/
inductive Level where
  | pml4
  | pdpt
  | pd
  | pt
deriving DecidableEq, Repr

namespace Level

def label : Level → String
  | pml4 => "PML4"
  | pdpt => "PDPT"
  | pd => "PD"
  | pt => "PT"

/-- The lowest address bit that takes part in the index at a level. -/
def shift : Level → Nat
  | pml4 => 39
  | pdpt => 30
  | pd => 21
  | pt => 12

def index (level : Level) (va : VirtualAddress) : Fin entryCount :=
  Fin.ofNat entryCount (va.word.toNat >>> level.shift)

example : index .pml4 ⟨0xffff888801234567⟩ = 0x111 ∧ index .pt ⟨0xffff888801234567⟩ = 0x34 := by
  decide

end Level

end DebugMonitor.Paging
