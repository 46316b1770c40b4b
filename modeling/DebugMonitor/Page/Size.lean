/-!
# Page sizes

The three sizes in which memory is mapped. All are powers of two, so the part of an address inside
its page is a remainder and the start of the page is a multiple.
-/

namespace DebugMonitor

inductive PageSize where
  | size4K
  | size2M
  | size1G
deriving DecidableEq, Repr

namespace PageSize

def all : List PageSize := [size4K, size2M, size1G]

/-- The number of address bits that select a byte inside the page. -/
def shift : PageSize → Nat
  | size4K => 12
  | size2M => 21
  | size1G => 30

def bytes : PageSize → UInt64
  | size4K => 0x1000
  | size2M => 0x200000
  | size1G => 0x40000000

def label : PageSize → String
  | size4K => "4K"
  | size2M => "2M"
  | size1G => "1G"

instance : ToString PageSize where
  toString := label

theorem toNat_bytes (s : PageSize) : s.bytes.toNat = 1 <<< s.shift := by
  cases s <;> rfl

theorem toNat_bytes_pos (s : PageSize) : 0 < s.bytes.toNat := by
  cases s <;> decide

/-- Every size divides the size of the address space. -/
theorem toNat_bytes_dvd (s : PageSize) : s.bytes.toNat ∣ UInt64.size := by
  cases s <;> decide

end PageSize

end DebugMonitor
