import DebugMonitor.Monitor.Action

/-!
# Unwinding the stack

A function saves the frame pointer of its caller at its own frame pointer, with the return address
above it and the words its caller pushed above that. Following the saved pointers gives the callers,
innermost first, until a saved pointer is zero.

The chain is data and may be anything, so two more conditions end it: a frame pointer below the
kernel stacks, where the frames of a user environment begin and the kernel must not read, and a
bound on the number of frames shown.
-/

namespace DebugMonitor

/-- One frame of the stack. -/
structure StackFrame where
  framePointer : UInt64
  returnAddress : UInt64
  /-- The six words above the return address. -/
  arguments : List UInt64
  /-- The frame pointer of the caller. -/
  next : UInt64
deriving DecidableEq, Repr

/-- The two lines that show a frame: its words, and the place its return address lies in. -/
def StackFrame.render (frame : StackFrame) (symbols : SymbolTable) : String :=
  let words := String.join (frame.arguments.map fun w => " " ++ Text.hexPadded 16 w)
  let place := match symbols.resolve frame.returnAddress with
    | some l =>
      s!"{l.file}:{l.line}: {l.function}+" ++ toString (frame.returnAddress - l.functionStart).toNat
    | none => "<unknown>:0: <unknown>+0"
  "  rbp " ++ Text.hexPadded 16 frame.framePointer ++ "  rip " ++
    Text.hexPadded 16 frame.returnAddress ++ "  args" ++ words ++ "\n" ++
    "         " ++ place ++ "\n"

/-- The line that ends a backtrace at a frame pointer, if one does, after `printed` frames. -/
def Monitor.unwindEnd? (m : Monitor) (fp printed : UInt64) : Option String :=
  if m.target.environment.isSome ∧ fp < m.options.stackFloor.word then
    some ("  <frame pointer 0x" ++ Text.hexPadded 16 fp ++
      ": below kernel stack, continues in another address space>")
  else if printed = m.options.maxFrames then
    some "  <frame limit reached>"
  else
    none

/-- An unwinding goes on at the frame pointers of the kernel, up to the bound on frames. -/
theorem Monitor.unwindEnd?_eq_none_iff {m : Monitor} {fp printed : UInt64} :
    m.unwindEnd? fp printed = none ↔
      (m.target.environment.isSome → m.options.stackFloor.word ≤ fp) ∧
        printed ≠ m.options.maxFrames := by
  rw [unwindEnd?]
  split
  · rename_i below
    simp only [reduceCtorEq, false_iff]
    exact fun goes => UInt64.not_le.2 below.2 (goes.1 below.1)
  · rename_i above
    have floor : m.target.environment.isSome → m.options.stackFloor.word ≤ fp :=
      fun environment => UInt64.not_lt.1 fun below => above ⟨environment, below⟩
    split
    · rename_i limit
      simp only [reduceCtorEq, false_iff]
      exact fun goes => goes.2 limit
    · rename_i limit
      exact iff_of_true rfl ⟨floor, limit⟩

namespace Action

/-- Reads word `i` of the frame at `fp`; addresses wrap around. -/
def readFrameWord (fp : UInt64) (i : Nat) : Action UInt64 :=
  readWord ⟨fp + UInt64.ofNat (8 * i)⟩

def readFrame (fp : UInt64) : Action StackFrame := do
  let arguments ← [2, 3, 4, 5, 6, 7].mapM (readFrameWord fp)
  let returnAddress ← readFrameWord fp 1
  let next ← readFrameWord fp 0
  return ⟨fp, returnAddress, arguments, next⟩

/-- Shows the frames from `fp` on, after `printed` frames have been shown. -/
def unwind (fp printed : UInt64) : Action Unit := do
  if fp = 0 then
    return
  match (← get).unwindEnd? fp printed with
  | some line => printLine line
  | none =>
    let frame ← readFrame fp
    print (frame.render (← get).target.symbols)
    match _ : Word.add printed 1 with
    | .ok printed => unwind frame.next printed
    | .error f => throw (.fault f)
termination_by UInt64.size - printed.toNat
decreasing_by
  have hsucc := Word.add_eq_ok_iff.1 ‹_›
  have hlt := UInt64.toNat_lt_size ‹UInt64›
  simp at hsucc
  omega

theorem unwind_zero {printed : UInt64} : unwind 0 printed = pure () := by
  rw [unwind]
  rfl

theorem unwind_of_ne_zero {fp printed : UInt64} (h : fp ≠ 0) :
    unwind fp printed = (do
      match (← get).unwindEnd? fp printed with
      | some line => printLine line
      | none =>
        let frame ← readFrame fp
        print (frame.render (← get).target.symbols)
        match Word.add printed 1 with
        | .ok printed => unwind frame.next printed
        | .error f => throw (.fault f)) := by
  rw [unwind, if_neg h]
  refine bind_congr fun m => ?_
  cases m.unwindEnd? fp printed with
  | some line => rfl
  | none =>
    refine bind_congr fun frame => bind_congr fun m => bind_congr fun _ => ?_
    cases Word.add printed 1 <;> rfl

def backtrace : Action Unit := do
  printLine "Stack backtrace:"
  unwind (← get).target.framePointer 0

end Action

end DebugMonitor
