import DebugMonitor.Paging.Table
import DebugMonitor.Memory
import DebugMonitor.Log.Notice

/-!
# The page walk

A walk follows an address through the tables of an address space. At each level the address selects
an entry; if it is not present the walk ends in a `Gap`, otherwise it goes on in the table the entry
refers to, until it meets the entry that maps the page, the leaf: a large page ends the walk at the
second or third level, and the fourth level always ends it.

Tables are words of physical memory, so the leaf names the word it was read from and can be edited
there. A table beyond the end of memory reads as zeros, and a walk that reaches it ends in a gap.

`route` lists the tables that a walk reads. Nothing else in memory has a part in its result.
-/

namespace DebugMonitor.Paging

/-- The entry that is missing where a walk ends without a mapping. -/
structure Gap where
  level : Level
  index : Fin entryCount
deriving DecidableEq, Repr

def Gap.notice (gap : Gap) (va : VirtualAddress) : Log.Notice :=
  ⟨.trace, s!"{va}: {gap.level.label}[{gap.index.val}] not present"⟩

/-- The entry that maps a page, and the word of memory it was read from. -/
structure Leaf where
  slot : Nat
  entry : Entry
  size : PageSize
deriving DecidableEq, Repr

/-- Where `va`, an address of the mapped page, lies in physical memory. -/
def Leaf.resolve (leaf : Leaf) (va : VirtualAddress) : Except Fault PhysicalAddress := do
  let base ← leaf.entry.frameBase leaf.size.bytes
  base.add (va.offset leaf.size)

/-- The tables rooted at one physical address. -/
structure AddressSpace where
  memory : Memory
  root : PhysicalAddress
deriving DecidableEq, Repr

/-- The word of memory that holds entry `index` of the table at `table`. -/
def slotOf (table : PhysicalAddress) (index : Fin entryCount) : Nat :=
  table.word.toNat / 8 + index.val

/-- Reads the entry that `va` selects in a table of the given level; it has to be present. -/
def step (m : Memory) (level : Level) (table : PhysicalAddress) (va : VirtualAddress) :
    Except Gap (Nat × Entry) :=
  let index := level.index va
  let slot := slotOf table index
  let entry : Entry := ⟨m.word slot⟩
  if entry.get .present then .ok (slot, entry) else .error ⟨level, index⟩

namespace AddressSpace

/-- The leaf that maps `va`, or the gap at which the walk ends. -/
def walk (space : AddressSpace) (va : VirtualAddress) : Except Gap Leaf := do
  let (_, e₄) ← step space.memory .pml4 space.root va
  let (s₃, e₃) ← step space.memory .pdpt e₄.physicalAddress va
  if e₃.get .largePage then
    return ⟨s₃, e₃, .size1G⟩
  let (s₂, e₂) ← step space.memory .pd e₃.physicalAddress va
  if e₂.get .largePage then
    return ⟨s₂, e₂, .size2M⟩
  let (s₁, e₁) ← step space.memory .pt e₂.physicalAddress va
  return ⟨s₁, e₁, .size4K⟩

/-- The tables that a walk reads, from the root down, each with its level. -/
def route (space : AddressSpace) (va : VirtualAddress) : List (Level × PhysicalAddress) :=
  (.pml4, space.root) :: match step space.memory .pml4 space.root va with
    | .error _ => []
    | .ok (_, e₄) =>
      (.pdpt, e₄.physicalAddress) :: match step space.memory .pdpt e₄.physicalAddress va with
        | .error _ => []
        | .ok (_, e₃) =>
          if e₃.get .largePage then [] else
            (.pd, e₃.physicalAddress) :: match step space.memory .pd e₃.physicalAddress va with
              | .error _ => []
              | .ok (_, e₂) =>
                if e₂.get .largePage then [] else [(.pt, e₂.physicalAddress)]

/-- Writes the entry of a leaf back to the word it was read from. -/
def store (space : AddressSpace) (leaf : Leaf) : AddressSpace :=
  { space with memory := space.memory.setWord leaf.slot leaf.entry.bits }

/-- Where `va` lies in physical memory, if it is mapped. -/
def resolve (space : AddressSpace) (va : VirtualAddress) :
    Except Fault (Option PhysicalAddress) :=
  match space.walk va with
  | .ok leaf => (leaf.resolve va).map some
  | .error _ => .ok none

/-- Sets a flag of the leaf that maps `va`; answers the edited leaf. -/
def setLeafFlag (space : AddressSpace) (va : VirtualAddress) (f : Entry.Flag) (on : Bool) :
    Except Gap (Leaf × AddressSpace) := do
  let leaf ← space.walk va
  let edited := { leaf with entry := leaf.entry.set f on }
  return (edited, space.store edited)

end AddressSpace

end DebugMonitor.Paging
