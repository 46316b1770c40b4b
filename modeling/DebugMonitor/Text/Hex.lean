/-!
# Hexadecimal text of words

The monitor prints addresses and registers with a fixed number of digits, padded with zeros on the
left, and never drops digits that do not fit the width. `hex` is the shortest form. A sign of the
base, where one is shown, is written by the caller.
-/

namespace DebugMonitor.Text

/-- The shortest hexadecimal form, in lower case; zero is one digit. -/
def hex (w : UInt64) : String :=
  String.ofList (Nat.toDigits 16 w.toNat)

/-- At least `width` lower-case digits. -/
def hexPadded (width : Nat) (w : UInt64) : String :=
  String.ofList ((Nat.toDigits 16 w.toNat).leftpad width '0')

/-- At least `width` upper-case digits. -/
def upperHexPadded (width : Nat) (w : UInt64) : String :=
  String.ofList (((Nat.toDigits 16 w.toNat).map Char.toUpper).leftpad width '0')

theorem toList_hexPadded (width : Nat) (w : UInt64) :
    (hexPadded width w).toList = (Nat.toDigits 16 w.toNat).leftpad width '0' :=
  String.toList_ofList

/-- A word has at most sixteen digits, so sixteen columns hold every word exactly. -/
theorem length_hexPadded_sixteen (w : UInt64) : (hexPadded 16 w).toList.length = 16 := by
  have h : (Nat.toDigits 16 w.toNat).length ≤ 16 :=
    (Nat.length_toDigits_le_iff (by decide) (by decide)).2 w.toNat_lt
  rw [toList_hexPadded, List.length_leftpad]
  omega

example : hexPadded 8 0xbeef = "0000beef" ∧ upperHexPadded 4 0xbeef5 = "BEEF5" := by decide

end DebugMonitor.Text
