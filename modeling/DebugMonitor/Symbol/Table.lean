import DebugMonitor.Symbol.Bisect

/-!
# The symbol table

The functions of the kernel in ascending order of address, each with the lines its code was compiled
from. `resolve` finds the function around an address, and the last line that starts at or before it.
-/

namespace DebugMonitor

/-- A function: its code lies from `start` up to, and without, `stop`. -/
structure Symbol where
  start : UInt64
  stop : UInt64
  function : String
  file : String
  /-- Where each line starts, in ascending order. -/
  lines : Array (UInt64 × Nat)
deriving DecidableEq, Repr

/-- A place in the source of the kernel. -/
structure Location where
  file : String
  line : Nat
  function : String
  functionStart : UInt64
deriving DecidableEq, Repr

/-- The line of an address, or 0 if it lies before the first line. -/
def Symbol.lineOf (s : Symbol) (addr : UInt64) : Nat :=
  match partitionPoint (fun line => line.1 ≤ addr) s.lines with
  | 0 => 0
  | i + 1 => (s.lines[i]?.map Prod.snd).getD 0

structure SymbolTable where
  symbols : Array Symbol := #[]
deriving DecidableEq, Repr

/-- The function whose code holds the address. -/
def SymbolTable.resolve (t : SymbolTable) (addr : UInt64) : Option Location :=
  match partitionPoint (fun s => s.start ≤ addr) t.symbols with
  | 0 => none
  | i + 1 => do
    let s ← t.symbols[i]?
    if addr < s.stop then
      some ⟨s.file, s.lineOf addr, s.function, s.start⟩
    else
      none

end DebugMonitor
