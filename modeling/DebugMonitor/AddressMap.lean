import DebugMonitor.Address

/-!
# The kernel's address map

The upper part of the virtual address space belongs to the kernel. From `directMapBase` all of
physical memory is visible at a fixed distance, `stackBase` starts the kernel stacks, one slot per
processor, and the kernel image runs at `kernelBase` while it is loaded at `loadBase`.

A slot of `stackStride` bytes holds, from below, a guard page and the stack; `stackTop` is where
the stack of a processor starts to grow down. The sums are checked, so a processor number too large
for the address space is a fault and not the address of some other stack.
-/

namespace DebugMonitor.AddressMap

/-- The end of the part that user programs can use. -/
def userEnd : VirtualAddress := ⟨0xffff000000000000⟩

def directMapBase : VirtualAddress := ⟨0xffff888000000000⟩

def kernelBase : VirtualAddress := ⟨0xffffffff80000000⟩

def loadBase : PhysicalAddress := ⟨0x100000⟩

def stackBase : VirtualAddress := ⟨0xffffff0000000000⟩

def stackBytes : UInt64 := 0x8000

def stackStride : UInt64 := 0x100000

def stackGuard : UInt64 := PageSize.size4K.bytes

/-- No kernel stack reaches below this address. -/
def stackFloor : VirtualAddress := stackBase

/-- The address just past the stack of processor `cpu`. -/
def stackTop (cpu : UInt64) : Except Fault VirtualAddress := do
  let slot ← stackBase.add (← Word.mul cpu stackStride)
  let lowest ← slot.add stackGuard
  lowest.add stackBytes

/-- The top of the stack of the first processor. -/
def bootStackTop : VirtualAddress := ⟨0xffffff0000009000⟩

/-- Where the direct map shows a physical address. -/
def directMap (pa : PhysicalAddress) : Except Fault VirtualAddress :=
  (Word.add directMapBase.word pa.word).map Address.mk

theorem stackTop_zero : stackTop 0 = .ok bootStackTop := rfl

/-- Where the stack of a processor ends: behind the slots of the processors before it and its own
guard page. -/
theorem stackTop_eq_ok_iff {cpu : UInt64} {top : VirtualAddress} :
    stackTop cpu = .ok top ↔ top.word.toNat =
      stackBase.word.toNat + cpu.toNat * stackStride.toNat + stackGuard.toNat +
        stackBytes.toNat := by
  have bound := top.word.toNat_lt_size
  rw [stackTop]
  cases hskip : Word.mul cpu stackStride with
  | error f =>
    have overflow := (Word.mul_eq_error_iff.1 hskip).2
    simp only [bind, Except.bind, reduceCtorEq, false_iff]
    omega
  | ok skip =>
    have skipped := Word.mul_eq_ok_iff.1 hskip
    cases hslot : stackBase.add skip with
    | error f =>
      have overflow := (Address.add_eq_error_iff.1 hslot).2
      simp only [hslot, bind, Except.bind, reduceCtorEq, false_iff]
      omega
    | ok slot =>
      have start := Address.add_eq_ok_iff.1 hslot
      cases hlowest : slot.add stackGuard with
      | error f =>
        have overflow := (Address.add_eq_error_iff.1 hlowest).2
        simp only [hslot, hlowest, bind, Except.bind, reduceCtorEq, false_iff]
        omega
      | ok lowest =>
        have guarded := Address.add_eq_ok_iff.1 hlowest
        simp only [hslot, hlowest, bind, Except.bind]
        rw [Address.add_eq_ok_iff, guarded, start, skipped]

/-- Only an overflow keeps a processor from having a stack. -/
theorem overflow_of_stackTop_eq_error {cpu : UInt64} {f : Fault} :
    stackTop cpu = .error f → f = .mulOverflow ∨ f = .addOverflow := by
  rw [stackTop]
  cases hskip : Word.mul cpu stackStride with
  | error f' =>
    simp only [bind, Except.bind, Except.error.injEq]
    rintro rfl
    exact .inl (Word.mul_eq_error_iff.1 hskip).1
  | ok skip =>
    cases hslot : stackBase.add skip with
    | error f' =>
      simp only [hslot, bind, Except.bind, Except.error.injEq]
      rintro rfl
      exact .inr (Address.add_eq_error_iff.1 hslot).1
    | ok slot =>
      cases hlowest : slot.add stackGuard with
      | error f' =>
        simp only [hslot, hlowest, bind, Except.bind, Except.error.injEq]
        rintro rfl
        exact .inr (Address.add_eq_error_iff.1 hlowest).1
      | ok lowest =>
        simp only [hslot, hlowest, bind, Except.bind]
        exact fun h => .inr (Address.add_eq_error_iff.1 h).1

theorem directMap_eq_ok_iff {pa : PhysicalAddress} {va : VirtualAddress} :
    directMap pa = .ok va ↔ va.word.toNat = directMapBase.word.toNat + pa.word.toNat := by
  rw [← Word.add_eq_ok_iff]
  cases va
  cases h : Word.add directMapBase.word pa.word <;> simp [directMap, h, Except.map]

/-- The number of physical addresses that the direct map can show. -/
def directMapSize : Nat := UInt64.size - directMapBase.word.toNat

theorem directMap_of_lt {pa : PhysicalAddress} (h : pa.word.toNat < directMapSize) :
    directMap pa = .ok ⟨directMapBase.word + pa.word⟩ := by
  rw [directMap_eq_ok_iff]
  apply Word.toNat_add_of_lt
  rw [directMapSize] at h
  omega

theorem directMap_of_le {pa : PhysicalAddress} (h : directMapSize ≤ pa.word.toNat) :
    directMap pa = .error .addOverflow := by
  have overflow : Word.add directMapBase.word pa.word = .error .addOverflow := by
    rw [Word.add_eq_error_iff]
    rw [directMapSize] at h
    exact ⟨rfl, by omega⟩
  rw [directMap, overflow]
  rfl

end DebugMonitor.AddressMap
