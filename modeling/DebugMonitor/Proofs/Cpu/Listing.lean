import DebugMonitor.Cpu.Context
import DebugMonitor.Proofs.Text.Lines
import DebugMonitor.Proofs.Word.Bits
import Mathlib.Tactic.IntervalCases

/-!
# What is shown of a trapped context

A context is shown by a heading, a line for each of its fifteen general registers and seven lines for
the rest. `Context.lines` has these lines with the names, columns and numbers of digits that an operator
sees, and `render_eq_unlines` shows that they are the text of the context. The event that raised the trap
is named by its vector: `exceptionNames` lists the events that the processor raises by itself.
-/

namespace DebugMonitor.Cpu

/-- The names of the exceptions, from vector 0 on; a reserved vector has none. -/
def exceptionNames : List (Option String) :=
  [some "Divide error", some "Debug", some "Non-Maskable Interrupt", some "Breakpoint",
    some "Overflow", some "BOUND Range Exceeded", some "Invalid Opcode",
    some "Device Not Available", some "Double Fault", some "Coprocessor Segment Overrun",
    some "Invalid TSS", some "Segment Not Present", some "Stack Fault", some "General Protection",
    some "Page Fault", none, some "x87 FPU Floating-Point Error", some "Alignment Check",
    some "Machine-Check", some "SIMD Floating-Point Exception", some "Virtualization Exception",
    some "Control Protection Exception"]

/-- What a vector is shown as. Devices raise the vectors from 32 on, up to the last one of a byte. -/
def eventName (vector : UInt64) : String :=
  if 32 ≤ vector.toNat ∧ vector.toNat < 256 then "Hardware Interrupt"
  else (exceptionNames[vector.toNat]?.join).getD "(unknown trap)"

theorem vectorName_eq_eventName (vector : UInt64) : vectorName vector = eventName vector := by
  rw [vectorName, eventName]
  generalize vector.toNat = n
  by_cases exception : n < 32
  · interval_cases n <;> rfl
  · have length : exceptionNames.length ≤ n :=
      Nat.le_trans (by decide) (Nat.not_lt.1 exception)
    rw [List.getElem?_eq_none length]
    split
    case h_22 => exact if_congr (and_congr_right' Nat.lt_succ_iff.symm) rfl rfl
    all_goals exact absurd (by decide) exception

namespace Context

/-- The line of a general register, with its name in a column of three. -/
def registerLine (column : String) (w : UInt64) : String :=
  "  " ++ column ++ "  0x" ++ Text.hexPadded 16 w

/-- A segment selector: the low sixteen bits of its word, and no digits for the others. -/
def selectorText (w : UInt64) : String :=
  "0x----" ++ Text.hexPadded 4 (UInt64.ofNat (Word.bitRange w 0 16))

/-- The lines that show a context. -/
def lines (c : Context) : List String :=
  ["TRAP frame",
    registerLine "rax" c.registers.rax,
    registerLine "rbx" c.registers.rbx,
    registerLine "rcx" c.registers.rcx,
    registerLine "rdx" c.registers.rdx,
    registerLine "rsi" c.registers.rsi,
    registerLine "rdi" c.registers.rdi,
    registerLine "rbp" c.registers.rbp,
    registerLine "r8 " c.registers.r8,
    registerLine "r9 " c.registers.r9,
    registerLine "r10" c.registers.r10,
    registerLine "r11" c.registers.r11,
    registerLine "r12" c.registers.r12,
    registerLine "r13" c.registers.r13,
    registerLine "r14" c.registers.r14,
    registerLine "r15" c.registers.r15,
    "  trap 0x" ++ Text.hexPadded 8 c.vector ++ " " ++ eventName c.vector,
    "  err  0x" ++ Text.hexPadded 8 c.errorCode,
    "  rip  0x" ++ Text.hexPadded 16 c.rip,
    "  cs   " ++ selectorText c.cs,
    "  flag 0x" ++ Text.hexPadded 16 c.flags.bits,
    "  rsp  0x" ++ Text.hexPadded 16 c.rsp,
    "  ss   " ++ selectorText c.ss]

theorem selector_eq (w : UInt64) : selector w = selectorText w := by
  have low : w % 0x10000 = UInt64.ofNat (Word.bitRange w 0 16) := by
    have small : Word.bitRange w 0 16 < UInt64.size :=
      Nat.lt_of_lt_of_le (Nat.mod_lt _ (by decide)) (by decide)
    apply UInt64.toNat_inj.1
    rw [UInt64.toNat_mod, UInt64.toNat_ofNat_of_lt' small, Word.bitRange, Nat.pow_zero, Nat.div_one]
    rfl
  rw [selector, selectorText, low]

theorem registerRow_eq (name : String) (w : UInt64) :
    registerRow (name, w) =
      registerLine (String.ofList (name.toList.rightpad 3 ' ')) w ++ "\n" := rfl

/-- The text of a context is made of these lines. -/
theorem render_eq_unlines (c : Context) : c.render = Text.unlines c.lines := by
  have heading : "TRAP frame\n" = "TRAP frame" ++ "\n" := rfl
  have registers : c.registers.toList.map registerRow =
      ((c.lines.drop 1).take 15).map (· ++ "\n") := by
    simp [Registers.toList, registerRow_eq, lines]
  unfold render
  rw [registers, selector_eq, selector_eq, vectorName_eq_eventName, heading]
  simp only [lines, Text.unlines, List.drop_succ_cons, List.drop_zero, List.take_succ_cons,
    List.take_zero, List.map_cons, List.map_nil, String.join_cons, String.join_nil,
    String.append_assoc, String.append_empty]

end Context

end DebugMonitor.Cpu
