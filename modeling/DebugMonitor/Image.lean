import DebugMonitor.AddressMap

/-!
# The kernel image

The linker marks where the parts of the kernel lie. The image runs at `AddressMap.kernelBase` and is
loaded at `AddressMap.loadBase`, so the two addresses of a mark differ by a constant.
-/

namespace DebugMonitor

structure Image where
  /-- Where the loader enters, before paging is on. -/
  start : PhysicalAddress := AddressMap.loadBase
  entry : VirtualAddress := AddressMap.kernelBase
  etext : VirtualAddress := AddressMap.kernelBase
  edata : VirtualAddress := AddressMap.kernelBase
  stop : VirtualAddress := AddressMap.kernelBase
deriving DecidableEq, Repr

namespace Image

/-- Where an address of the running image was loaded. Addresses outside the image wrap around. -/
def loadAddress (va : VirtualAddress) : PhysicalAddress :=
  ⟨va.word - AddressMap.kernelBase.word + AddressMap.loadBase.word⟩

/-- The size from the entry to the end in units of 1024 bytes, a started unit counted as whole. -/
def footprintKiB (image : Image) : UInt64 :=
  let bytes := Word.saturatingSub image.stop.word image.entry.word
  bytes / 1024 + if bytes % 1024 = 0 then 0 else 1

/-- The marks of the image with their names, in the order of the map. -/
def marks (image : Image) : List (String × VirtualAddress) :=
  [("entry", image.entry), ("etext", image.etext), ("edata", image.edata), ("end", image.stop)]

end Image

end DebugMonitor
