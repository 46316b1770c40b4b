/-!
# Trap vectors

The name of the event that raised a trap, by vector. Vectors from 32 to 255 are raised by devices;
vector 15 and those from 22 to 31 are reserved and have no name, like every number beyond 255.
-/

namespace DebugMonitor.Cpu

def vectorName (vector : UInt64) : String :=
  match vector.toNat with
  | 0 => "Divide error"
  | 1 => "Debug"
  | 2 => "Non-Maskable Interrupt"
  | 3 => "Breakpoint"
  | 4 => "Overflow"
  | 5 => "BOUND Range Exceeded"
  | 6 => "Invalid Opcode"
  | 7 => "Device Not Available"
  | 8 => "Double Fault"
  | 9 => "Coprocessor Segment Overrun"
  | 10 => "Invalid TSS"
  | 11 => "Segment Not Present"
  | 12 => "Stack Fault"
  | 13 => "General Protection"
  | 14 => "Page Fault"
  | 16 => "x87 FPU Floating-Point Error"
  | 17 => "Alignment Check"
  | 18 => "Machine-Check"
  | 19 => "SIMD Floating-Point Exception"
  | 20 => "Virtualization Exception"
  | 21 => "Control Protection Exception"
  | n => if 32 ≤ n ∧ n ≤ 255 then "Hardware Interrupt" else "(unknown trap)"

end DebugMonitor.Cpu
