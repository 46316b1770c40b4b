import DebugMonitor.Proofs.Monitor.Backtrace
import DebugMonitor.Proofs.Monitor.Visiting
import Mathlib.Order.CompletePartialOrder
import Mathlib.Order.Interval.Set.Disjoint

/-!
# Kernel stacks

The stacks of the processors lie in slots of one size, one behind the other from `stackBase` up, each
above a guard page of its own. The address space has room for so many of them as `exists_stackTop_iff`
says; the last ones lie on the addresses of the kernel image. Slots are intervals of natural numbers
here, since the last one ends where the address space does.

No stack reaches below the floor that a monitor has by default. So an unwinding that comes to a frame on
one of them does not take it for the frame of a user environment, and stops there for no reason but the
bound on frames: `kernelStacks_apart`.
-/

namespace DebugMonitor

open Command

namespace AddressMap

/-- Where a slot starts. The slots go on behind the end of the address space. -/
def slotStart (n : Nat) : Nat :=
  stackBase.word.toNat + n * stackStride.toNat

/-- The addresses of the slot of a processor. -/
def slot (cpu : UInt64) : Set Nat :=
  Set.Ico (slotStart cpu.toNat) (slotStart (cpu.toNat + 1))

/-- The page at the lower end of a slot, where nothing is mapped. -/
def guardPage (cpu : UInt64) : Set Nat :=
  Set.Ico (slotStart cpu.toNat) (slotStart cpu.toNat + stackGuard.toNat)

/-- The addresses of the stack that grows down from a top. -/
def stackUnder (top : VirtualAddress) : Set Nat :=
  Set.Ico (top.word.toNat - stackBytes.toNat) top.word.toNat

variable {a b cpu : UInt64} {top top' : VirtualAddress}

/-- The processors that have a stack. -/
theorem exists_stackTop_iff : (∃ top, stackTop cpu = .ok top) ↔ cpu.toNat < 2 ^ 20 := by
  have base : stackBase.word.toNat = 2 ^ 64 - 2 ^ 40 := rfl
  have stride : stackStride.toNat = 2 ^ 20 := rfl
  have guard : stackGuard.toNat = 0x1000 := rfl
  have bytes : stackBytes.toNat = 0x8000 := rfl
  have size : UInt64.size = 2 ^ 64 := rfl
  simp only [stackTop_eq_ok_iff, base, stride, guard, bytes]
  constructor
  · rintro ⟨top, h⟩
    have bound := top.word.toNat_lt_size
    omega
  · intro below
    refine ⟨⟨.ofNat (2 ^ 64 - 2 ^ 40 + cpu.toNat * 2 ^ 20 + 0x1000 + 0x8000)⟩, ?_⟩
    exact UInt64.toNat_ofNat_of_lt' (by omega)

theorem exists_overflow_of_le (beyond : 2 ^ 20 ≤ cpu.toNat) :
    ∃ f, stackTop cpu = .error f ∧ (f = .mulOverflow ∨ f = .addOverflow) := by
  cases h : stackTop cpu with
  | ok top => exact absurd (exists_stackTop_iff.1 ⟨top, h⟩) (Nat.not_lt.2 beyond)
  | error f => exact ⟨f, rfl, overflow_of_stackTop_eq_error h⟩

/-- A stack starts right above the guard page of its slot. -/
theorem stackUnder_eq (h : stackTop cpu = .ok top) :
    stackUnder top = Set.Ico (slotStart cpu.toNat + stackGuard.toNat)
      (slotStart cpu.toNat + stackGuard.toNat + stackBytes.toNat) := by
  rw [stackUnder, stackTop_eq_ok_iff.1 h, Nat.add_sub_cancel, slotStart]

theorem stackUnder_subset_slot (h : stackTop cpu = .ok top) : stackUnder top ⊆ slot cpu := by
  have room : stackGuard.toNat + stackBytes.toNat ≤ stackStride.toNat := by decide
  rw [stackUnder_eq h, slot]
  apply Set.Ico_subset_Ico
  · exact Nat.le_add_right _ _
  · simp only [slotStart, Nat.add_mul, Nat.one_mul]
    omega

theorem guardPage_subset_slot (cpu : UInt64) : guardPage cpu ⊆ slot cpu := by
  have room : stackGuard.toNat ≤ stackStride.toNat := by decide
  apply Set.Ico_subset_Ico_right
  simp only [slotStart, Nat.add_mul, Nat.one_mul]
  omega

theorem disjoint_slot (apart : b ≠ a) : Disjoint (slot a) (slot b) := by
  have stride : stackStride.toNat = 2 ^ 20 := rfl
  have numbers : b.toNat ≠ a.toNat := fun same => apart (UInt64.toNat_inj.1 same)
  rw [Set.disjoint_left]
  simp only [slot, Set.mem_Ico, slotStart, stride]
  omega

/-- A stack shares no address with the slot of another processor, its stack or its guard page. -/
theorem disjoint_stackUnder (ha : stackTop a = .ok top) (hb : stackTop b = .ok top')
    (apart : b ≠ a) : Disjoint (stackUnder top) (stackUnder top' ∪ guardPage b) :=
  (disjoint_slot apart).mono (stackUnder_subset_slot ha)
    (Set.union_subset (stackUnder_subset_slot hb) (guardPage_subset_slot b))

/-- The slots of the last processors lie at or above the base of the kernel image. -/
theorem stackUnder_subset_below_kernelBase_iff (h : stackTop cpu = .ok top) :
    stackUnder top ⊆ Set.Iio kernelBase.word.toNat ↔ cpu.toNat < 2 ^ 20 - 2 ^ 11 := by
  have base : stackBase.word.toNat = 2 ^ 64 - 2 ^ 40 := rfl
  have kernel : kernelBase.word.toNat = 2 ^ 64 - 2 ^ 31 := rfl
  have stride : stackStride.toNat = 2 ^ 20 := rfl
  have guard : stackGuard.toNat = 0x1000 := rfl
  have bytes : stackBytes.toNat = 0x8000 := rfl
  rw [stackUnder_eq h]
  simp only [slotStart, base, stride, guard, bytes, kernel]
  constructor
  · intro below
    have last := below (Set.mem_Ico.2 ⟨Nat.le_add_right _ 0x7fff, by omega⟩)
    rw [Set.mem_Iio] at last
    omega
  · intro early address on
    rw [Set.mem_Ico] at on
    rw [Set.mem_Iio]
    omega

theorem stackFloor_le_of_mem {fp : UInt64} (h : stackTop cpu = .ok top)
    (on : fp.toNat ∈ stackUnder top) : stackFloor.word ≤ fp := by
  rw [stackUnder_eq h, Set.mem_Ico, slotStart] at on
  rw [UInt64.le_iff_toNat_le, stackFloor]
  omega

end AddressMap

open AddressMap

/-- An unwinding that stops at a frame on a kernel stack has come to the bound on frames. -/
theorem Target.stopLine_of_mem_stackUnder {t : Target} {o : Options} {cpu : UInt64}
    {top : VirtualAddress} {k : Nat} (floor : o.stackFloor = stackFloor)
    (h : stackTop cpu = .ok top) (on : (t.chain k).toNat ∈ stackUnder top) (stops : t.StopsAt o k) :
    k = o.maxFrames.toNat ∧ t.stopLine o k = "  <frame limit reached>\n" := by
  have above := stackFloor_le_of_mem h on
  have nonzero : t.chain k ≠ 0 := by
    intro zero
    rw [zero] at above
    exact absurd above (by decide)
  have stays : ¬ t.LeavesKernel o k := by
    rintro ⟨-, below⟩
    rw [floor] at below
    exact UInt64.not_lt.2 above below
  refine ⟨(stops.resolve_left nonzero).resolve_left stays, ?_⟩
  rw [stopLine, if_neg nonzero, if_neg stays]

namespace Monitor

/-- The stacks of the processors. Exactly the processors below `2 ^ 20` have one; for all others the
address overflows. A stack lies in the slot of its processor, right above the guard page, so it has no
address in common with the stack or the guard page of another one, and it lies below the kernel image
exactly for the processors below `2 ^ 20 - 2 ^ 11`. All of it lies at or above the default floor of an
unwinding. So with this floor a backtrace never tells that a frame on a kernel stack is below the stacks:
if it stops at one then by the bound on frames, on every terminal and whatever memory holds. -/
theorem kernelStacks_apart :
    (∀ cpu, (∃ top, stackTop cpu = .ok top) ↔ cpu.toNat < 2 ^ 20) ∧
    (∀ cpu, 2 ^ 20 ≤ cpu.toNat →
      ∃ f, stackTop cpu = .error f ∧ (f = .mulOverflow ∨ f = .addOverflow)) ∧
    (∀ a top, stackTop a = .ok top →
      top.word.toNat = slotStart a.toNat + stackGuard.toNat + stackBytes.toNat ∧
      stackUnder top ⊆ slot a ∧
      (∀ b top', stackTop b = .ok top' → b ≠ a →
        Disjoint (stackUnder top) (stackUnder top' ∪ guardPage b)) ∧
      (stackUnder top ⊆ Set.Iio kernelBase.word.toNat ↔ a.toNat < 2 ^ 20 - 2 ^ 11) ∧
      ∀ fp : UInt64, fp.toNat ∈ stackUnder top → stackFloor.word ≤ fp) ∧
    ∀ (m : Monitor) (text : String), m.options.stackFloor = ({} : Options).stackFloor →
      Asks text .backtrace →
        ∃ k, m.target.StopsAt m.options k ∧ (∀ i < k, ¬ m.target.StopsAt m.options i) ∧
          (∃ m', m.runCommand text = .ok .proceed m' ∧
            m'.terminal = m.terminal.afterShowing (m.target.backtraceText m.options k)) ∧
          ∀ a top, stackTop a = .ok top → (m.target.chain k).toNat ∈ stackUnder top →
            k = m.options.maxFrames.toNat ∧
            m.target.stopLine m.options k = "  <frame limit reached>\n" := by
  refine ⟨fun _ => exists_stackTop_iff, fun _ => exists_overflow_of_le, ?_, ?_⟩
  · intro a top h
    exact ⟨stackTop_eq_ok_iff.1 h, stackUnder_subset_slot h, fun b top' => disjoint_stackUnder h,
      stackUnder_subset_below_kernelBase_iff h, fun fp => stackFloor_le_of_mem h⟩
  · intro m text floor asks
    obtain ⟨k, stops, goes⟩ := m.target.exists_stopsAt m.options
    refine ⟨k, stops, goes, ?_, fun a top h on => Target.stopLine_of_mem_stackUnder floor h on stops⟩
    refine exists_runCommand_eq_afterShowing asks nofun fun journal => ?_
    have run := Action.backtrace_eq_ok (m := { m.withTerminal {} with journal }) rfl stops goes
    exact ⟨_, Action.run_bind _ run, String.empty_append⟩

/-- A machine in a user environment that trapped to the stack of processor 7, where no frame is to be
shown. -/
def onSeventhStack : Monitor :=
  { target := { framePointer := 0xffffff0000708f00, environment := some 1 }
    options := { maxFrames := 0 } }

theorem kernelStacks_apart_seventh :
    ∃ m', onSeventhStack.runCommand "backtrace" = .ok .proceed m' ∧
      m'.terminal.shown = "Stack backtrace:\n  <frame limit reached>\n" := by
  have asks : Asks "backtrace" .backtrace := by decide +kernel
  have top : stackTop 7 = .ok ⟨0xffffff0000709000⟩ := stackTop_eq_ok_iff.2 (by decide)
  obtain ⟨-, -, -, run⟩ := kernelStacks_apart
  obtain ⟨k, stops, goes, ⟨m', ran, shown⟩, reason⟩ := run onSeventhStack _ rfl asks
  have first : onSeventhStack.target.StopsAt onSeventhStack.options 0 := by decide
  have zero : k = 0 := Nat.eq_zero_of_not_pos fun later => goes 0 later first
  subst zero
  obtain ⟨-, told⟩ := reason 7 _ top ⟨by decide, by decide⟩
  have text : onSeventhStack.target.backtraceText onSeventhStack.options 0 =
      "Stack backtrace:\n  <frame limit reached>\n" :=
    congrArg ("Stack backtrace:\n" ++ "" ++ ·) told
  refine ⟨m', ran, ?_⟩
  rw [shown, text]
  rfl

end Monitor

end DebugMonitor
