import DebugMonitor.Paging.Entry

/-!
# The page-table base register

The register that selects the root of the page tables refers to the frame of the root in the same
bits in which a table entry refers to the next table, and it has two caching bits for the walk
itself. The bits below the frame are no part of the address.
-/

namespace DebugMonitor.Cpu

structure TableBase where
  bits : UInt64
deriving DecidableEq, Repr

namespace TableBase

def writeThrough (r : TableBase) : Bool :=
  Word.testBit r.bits 3

def cacheDisabled (r : TableBase) : Bool :=
  Word.testBit r.bits 4

/-- The physical address of the root table. -/
def root (r : TableBase) : PhysicalAddress :=
  (Paging.Entry.mk r.bits).physicalAddress

example : (TableBase.mk 0x1234018).root = ⟨0x1234000⟩ := by decide

end TableBase

end DebugMonitor.Cpu
