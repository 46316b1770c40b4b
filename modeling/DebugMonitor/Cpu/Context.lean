import DebugMonitor.Cpu.Flags
import DebugMonitor.Cpu.Vector
import DebugMonitor.Text.Hex

/-!
# The trapped context

What the processor and the entry code save when a trap interrupts a program: the general registers,
the vector with its error code, and the state the processor returns to. Changing the saved flags
changes how the program goes on; with the trap flag set it stops again after one instruction.
-/

namespace DebugMonitor.Cpu

structure Registers where
  rax : UInt64 := 0
  rbx : UInt64 := 0
  rcx : UInt64 := 0
  rdx : UInt64 := 0
  rsi : UInt64 := 0
  rdi : UInt64 := 0
  rbp : UInt64 := 0
  r8 : UInt64 := 0
  r9 : UInt64 := 0
  r10 : UInt64 := 0
  r11 : UInt64 := 0
  r12 : UInt64 := 0
  r13 : UInt64 := 0
  r14 : UInt64 := 0
  r15 : UInt64 := 0
deriving DecidableEq, Repr

/-- The registers with their names, in the order they are shown. -/
def Registers.toList (r : Registers) : List (String × UInt64) :=
  [("rax", r.rax), ("rbx", r.rbx), ("rcx", r.rcx), ("rdx", r.rdx), ("rsi", r.rsi), ("rdi", r.rdi),
    ("rbp", r.rbp), ("r8", r.r8), ("r9", r.r9), ("r10", r.r10), ("r11", r.r11), ("r12", r.r12),
    ("r13", r.r13), ("r14", r.r14), ("r15", r.r15)]

structure Context where
  registers : Registers := {}
  vector : UInt64 := 0
  errorCode : UInt64 := 0
  rip : UInt64 := 0
  cs : UInt64 := 0
  flags : Flags := {}
  rsp : UInt64 := 0
  ss : UInt64 := 0
deriving DecidableEq, Repr

namespace Context

/-- Whether the program stops again after its next instruction. -/
def isSingleStep (c : Context) : Bool :=
  c.flags.get .trap

def setSingleStep (c : Context) (on : Bool) : Context :=
  { c with flags := c.flags.set .trap on }

@[simp] theorem isSingleStep_setSingleStep (c : Context) (on : Bool) :
    (c.setSingleStep on).isSingleStep = on :=
  Flags.get_set_self _ _ _

/-! ### Text -/

/-- A register name in a column of three. -/
def registerRow (row : String × UInt64) : String :=
  "  " ++ String.ofList (row.1.toList.rightpad 3 ' ') ++ "  0x" ++ Text.hexPadded 16 row.2 ++ "\n"

/-- A segment selector has sixteen bits; the rest of its word is not shown. -/
def selector (w : UInt64) : String :=
  "0x----" ++ Text.hexPadded 4 (w % 0x10000)

/-- All of the context, one register a line. -/
def render (c : Context) : String :=
  "TRAP frame\n" ++ String.join (c.registers.toList.map registerRow)
    ++ "  trap 0x" ++ Text.hexPadded 8 c.vector ++ " " ++ vectorName c.vector ++ "\n"
    ++ "  err  0x" ++ Text.hexPadded 8 c.errorCode ++ "\n"
    ++ "  rip  0x" ++ Text.hexPadded 16 c.rip ++ "\n"
    ++ "  cs   " ++ selector c.cs ++ "\n"
    ++ "  flag 0x" ++ Text.hexPadded 16 c.flags.bits ++ "\n"
    ++ "  rsp  0x" ++ Text.hexPadded 16 c.rsp ++ "\n"
    ++ "  ss   " ++ selector c.ss ++ "\n"

end Context

end DebugMonitor.Cpu
