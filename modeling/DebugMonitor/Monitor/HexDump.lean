import DebugMonitor.Monitor.Action
import DebugMonitor.Command.Request

/-!
# Hex dumps

Bytes are shown in rows of sixteen counted from the start of the run, each row led by its address.
A byte is read just before it is printed, so a dump that ends early has read nothing it did not try
to show. Physical addresses are read through the direct map, and one that the direct map cannot
show is a fault.
-/

namespace DebugMonitor.Action

open Command (View ByteSpan bytesPerRow)

/-- Reads the byte at an address of the chosen space. -/
def readIn (view : View) (addr : UInt64) : Action UInt8 := do
  match view with
  | .virtual => readByte ⟨addr⟩
  | .physical => readByte (← ofExcept (AddressMap.directMap ⟨addr⟩))

/-- Prints the bytes from `addr` up to `stop`, each after a space. -/
def dumpBytes (view : View) (addr stop : UInt64) : Action Unit :=
  if _ : addr < stop then do
    let byte ← readIn view addr
    print (" " ++ Text.hexPadded 2 byte.toUInt64)
    dumpBytes view (addr + 1) stop
  else
    pure ()
termination_by stop.toNat - addr.toNat
decreasing_by
  have hlt := UInt64.lt_iff_toNat_lt.1 ‹addr < stop›
  rw [Word.toNat_add_one_of_lt ‹addr < stop›]
  omega

/-- The end of the row that starts at `row`. -/
def rowStop (row stop : UInt64) : UInt64 :=
  let full := Word.saturatingAdd row bytesPerRow
  if stop ≤ full then stop else full

theorem toNat_rowStop {row stop : UInt64} :
    (rowStop row stop).toNat = min stop.toNat (row.toNat + 16) := by
  have hstop := stop.toNat_lt_size
  have hsat : (Word.saturatingAdd row bytesPerRow).toNat = min (row.toNat + 16) (UInt64.size - 1) :=
    Word.toNat_saturatingAdd
  rw [rowStop]
  simp only [UInt64.le_iff_toNat_le, hsat]
  split
  · omega
  · rw [hsat]
    omega

/-- Prints the rows from `row` up to `stop`. -/
def dumpRows (view : View) (row stop : UInt64) : Action Unit :=
  if _ : row < stop then do
    print ("0x" ++ Text.hexPadded 16 row ++ ":")
    dumpBytes view row (rowStop row stop)
    print "\n"
    dumpRows view (rowStop row stop) stop
  else
    pure ()
termination_by stop.toNat - row.toNat
decreasing_by
  have hlt := UInt64.lt_iff_toNat_lt.1 ‹row < stop›
  rw [toNat_rowStop]
  omega

section

variable {view : View} {addr row stop : UInt64}

theorem dumpBytes_of_lt (h : addr < stop) :
    dumpBytes view addr stop = (do
      let byte ← readIn view addr
      print (" " ++ Text.hexPadded 2 byte.toUInt64)
      dumpBytes view (addr + 1) stop) := by
  rw [dumpBytes, dif_pos h]

theorem dumpBytes_of_le (h : stop ≤ addr) : dumpBytes view addr stop = pure () := by
  rw [dumpBytes, dif_neg (UInt64.not_lt.2 h)]

theorem dumpRows_of_lt (h : row < stop) :
    dumpRows view row stop = (do
      print ("0x" ++ Text.hexPadded 16 row ++ ":")
      dumpBytes view row (rowStop row stop)
      print "\n"
      dumpRows view (rowStop row stop) stop) := by
  rw [dumpRows, dif_pos h]

theorem dumpRows_of_le (h : stop ≤ row) : dumpRows view row stop = pure () := by
  rw [dumpRows, dif_neg (UInt64.not_lt.2 h)]

end

def dump (view : View) (bytes : ByteSpan) : Action Unit :=
  dumpRows view bytes.start bytes.stop

end DebugMonitor.Action
