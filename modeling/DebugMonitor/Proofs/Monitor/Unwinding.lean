import DebugMonitor.Proofs.Command.Reading
import DebugMonitor.Proofs.Monitor.Transcript
import DebugMonitor.Proofs.Monitor.Unlimited

/-!
# What an unwinding reads

An unwinding reads memory frame by frame, eight words each, and looks at a frame pointer before it
reads the frame. While a user environment is current it goes on only at or above the floor of the
kernel stacks. `exists_reads_unwind` says so for every chain of frame pointers, wherever the run ends.

The floor bounds the frame pointers and, with one exception, the words: a frame that runs over the end
of the address space goes on at its beginning.
-/

namespace DebugMonitor

open Command

/-- Where word `i` of the frame at `fp` lies. -/
def frameSlot (fp : UInt64) (i : Nat) : VirtualAddress :=
  ⟨fp + UInt64.ofNat (8 * i)⟩

/-- What the trace shows of reading words of a frame. -/
def wordReads (fp : UInt64) (indices : List Nat) : List Effect :=
  indices.map fun i => .readWord (frameSlot fp i)

/-- What the trace shows of reading a frame. -/
def frameReads (fp : UInt64) : List Effect :=
  wordReads fp [2, 3, 4, 5, 6, 7, 1, 0]

/-- The frame that memory holds at a frame pointer. -/
def Target.frameAt (t : Target) (fp : UInt64) : StackFrame where
  framePointer := fp
  returnAddress := t.word (frameSlot fp 1)
  arguments := [2, 3, 4, 5, 6, 7].map fun i => t.word (frameSlot fp i)
  next := t.word (frameSlot fp 0)

theorem readWord_mem_frameReads {fp : UInt64} {va : VirtualAddress} :
    .readWord va ∈ frameReads fp ↔ ∃ i < 8, va = frameSlot fp i := by
  have words (i : Nat) : i ∈ [2, 3, 4, 5, 6, 7, 1, 0] ↔ i < 8 := by
    simp only [List.mem_cons, List.not_mem_nil, or_false]
    omega
  simp only [frameReads, wordReads, List.mem_map, words, Effect.readWord.injEq, eq_comm]

/-- A word lies above its frame pointer, unless the frame runs over the end of the address space. -/
theorem toNat_frameSlot (fp : UInt64) {i : Nat} (h : i < 8) :
    (frameSlot fp i).word.toNat = fp.toNat + 8 * i ∨
      fp.toNat + 8 * i = UInt64.size + (frameSlot fp i).word.toNat := by
  have small : (UInt64.ofNat (8 * i)).toNat = 8 * i := by
    rw [UInt64.toNat_ofNat', Nat.mod_eq_of_lt (by omega)]
  have size : UInt64.size = 2 ^ 64 := rfl
  have bound := fp.toNat_lt_size
  rw [frameSlot, UInt64.toNat_add, small]
  omega

namespace Action

variable {fp printed : UInt64} {m : Monitor}

theorem readFrameWord_eq (fp : UInt64) (i : Nat) (m : Monitor) :
    readFrameWord fp i m =
      .ok (m.target.word (frameSlot fp i)) (m.recordAll (wordReads fp [i])) := rfl

theorem mapM_readFrameWord_eq (fp : UInt64) (indices : List Nat) (m : Monitor) :
    indices.mapM (readFrameWord fp) m =
      .ok (indices.map fun i => m.target.word (frameSlot fp i))
        (m.recordAll (wordReads fp indices)) := by
  induction indices generalizing m with
  | nil => simp [wordReads, pure, EStateM.pure]
  | cons i indices ih =>
    rw [List.mapM_cons]
    have rest := ih (m.recordAll (wordReads fp [i]))
    simp only [Monitor.recordAll_recordAll] at rest
    exact (run_bind _ (readFrameWord_eq fp i m)).trans (run_bind _ rest)

/-- A frame is read as it lies in memory. -/
theorem readFrame_eq (fp : UInt64) (m : Monitor) :
    readFrame fp m = .ok (m.target.frameAt fp) (m.recordAll (frameReads fp)) := by
  have arguments := mapM_readFrameWord_eq fp [2, 3, 4, 5, 6, 7] m
  have returnAddress := readFrameWord_eq fp 1 (m.recordAll (wordReads fp [2, 3, 4, 5, 6, 7]))
  have next := readFrameWord_eq fp 0 (m.recordAll (wordReads fp [2, 3, 4, 5, 6, 7, 1]))
  rw [Monitor.recordAll_recordAll] at returnAddress next
  exact (run_bind _ arguments).trans <| (run_bind _ returnAddress).trans (run_bind _ next)

theorem unwind_eq_printLine {line : String} (nonzero : fp ≠ 0)
    (ends : m.unwindEnd? fp printed = some line) : unwind fp printed m = printLine line m := by
  rw [unwind_of_ne_zero nonzero, run_get_bind, ends]

/-- Where no line ends an unwinding the next frame is read and shown. -/
theorem unwind_eq (nonzero : fp ≠ 0) (goes : m.unwindEnd? fp printed = none) :
    unwind fp printed m =
      (do
        print ((m.target.frameAt fp).render m.target.symbols)
        match Word.add printed 1 with
        | .ok printed => unwind (m.target.frameAt fp).next printed
        | .error f => throw (Halt.fault f)) (m.recordAll (frameReads fp)) := by
  rw [unwind_of_ne_zero nonzero, run_get_bind, goes]
  exact run_bind _ (readFrame_eq fp m)

/-- Wherever an unwinding ends, it has read whole frames at or above the floor and nothing else. Its
first frame is among them unless a line ends it there. -/
theorem exists_reads_unwind (fp printed : UInt64) (m : Monitor)
    (environment : m.target.environment.isSome) :
    ∃ frames : List UInt64,
      (∀ frame ∈ frames, m.options.stackFloor.word ≤ frame) ∧
      (m.after (unwind fp printed)).trace.toList =
        m.trace.toList ++ frames.flatMap frameReads ∧
      (fp ≠ 0 → m.unwindEnd? fp printed = none → fp ∈ frames) := by
  by_cases zero : fp = 0
  · refine ⟨[], fun _ member => absurd member List.not_mem_nil, ?_, fun nonzero => absurd zero nonzero⟩
    rw [zero, unwind_zero]
    exact (List.append_nil _).symm
  cases ends : m.unwindEnd? fp printed with
  | some line =>
    refine ⟨[], fun _ member => absurd member List.not_mem_nil, ?_, fun _ goes => nomatch goes⟩
    rw [Monitor.after_eq_of_eq (unwind_eq_printLine zero ends), List.flatMap_nil, List.append_nil]
    obtain ⟨t, shown | failed⟩ := exists_print_eq (line ++ "\n") m
    · exact congrArg (·.trace.toList) (Monitor.after_of_ok shown)
    · exact congrArg (·.trace.toList) (Monitor.after_of_error failed)
  | none =>
    have above := (Monitor.unwindEnd?_eq_none_iff.1 ends).1 environment
    have once : (m.recordAll (frameReads fp)).trace.toList =
        m.trace.toList ++ [fp].flatMap frameReads := by
      simp
    have floor : ∀ frame ∈ [fp], m.options.stackFloor.word ≤ frame :=
      fun frame member => List.mem_singleton.1 member ▸ above
    rw [Monitor.after_eq_of_eq (unwind_eq zero ends)]
    obtain ⟨t, shown | failed⟩ := exists_print_eq
      ((m.target.frameAt fp).render m.target.symbols) (m.recordAll (frameReads fp))
    · rw [after_bind_of_ok _ shown]
      cases hsucc : Word.add printed 1 with
      | error f => exact ⟨[fp], floor, once, fun _ _ => List.mem_singleton_self fp⟩
      | ok succ =>
        obtain ⟨frames, floors, reads, -⟩ := exists_reads_unwind (m.target.frameAt fp).next succ
          ((m.recordAll (frameReads fp)).withTerminal t) environment
        refine ⟨fp :: frames, List.forall_mem_cons.2 ⟨above, floors⟩, ?_,
          fun _ _ => List.mem_cons_self⟩
        rw [List.flatMap_cons, ← List.append_assoc, ← Monitor.toList_trace_recordAll]
        exact reads
    · rw [Monitor.after_of_error (run_bind_of_error _ failed)]
      exact ⟨[fp], floor, once, fun _ _ => List.mem_singleton_self fp⟩
termination_by UInt64.size - printed.toNat
decreasing_by
  have next := Word.add_eq_ok_iff.1 hsucc
  have bound := succ.toNat_lt_size
  simp at next
  omega

/-- The first frame is read when the heading is taken and no line ends the unwinding there. -/
theorem exists_reads_backtrace (m : Monitor) (environment : m.target.environment.isSome) :
    ∃ frames : List UInt64,
      (∀ frame ∈ frames, m.options.stackFloor.word ≤ frame) ∧
      (m.after backtrace).trace.toList = m.trace.toList ++ frames.flatMap frameReads ∧
      (m.Unlimited → m.target.framePointer ≠ 0 → m.unwindEnd? m.target.framePointer 0 = none →
        m.target.framePointer ∈ frames) := by
  obtain ⟨t, shown | failed⟩ := exists_print_eq ("Stack backtrace:" ++ "\n") m
  · obtain ⟨frames, floors, reads, first⟩ :=
      exists_reads_unwind m.target.framePointer 0 (m.withTerminal t) environment
    have headed : m.after backtrace = (m.withTerminal t).after (unwind m.target.framePointer 0) :=
      after_bind_of_ok _ shown
    refine ⟨frames, floors, ?_, fun _ => first⟩
    rw [headed]
    exact reads
  · refine ⟨[], fun _ member => absurd member List.not_mem_nil, ?_, ?_⟩
    · rw [List.flatMap_nil, List.append_nil]
      exact congrArg (·.trace.toList) (Monitor.after_of_error (run_bind_of_error _ failed))
    · intro unlimited
      rw [run_print unlimited] at failed
      cases failed

end Action

namespace Monitor

variable {text : String} {m : Monitor}

theorem trace_report (m : Monitor) (d : Diagnostic) : (m.report d).trace = m.trace := by
  rw [report]
  cases d.notice? <;> rfl

/-- A line asks as much of the target as carrying out its request does. -/
theorem exists_trace_runCommand_eq {request : Request} (asks : Asks text request) (m : Monitor) :
    ∃ journal, (m.after (runCommand text)).trace =
      ({ m with journal }.after (Action.execute request)).trace := by
  obtain ⟨journal, read⟩ := Action.exists_interpret_eq_execute asks m
  refine ⟨journal, ?_⟩
  rw [after, after, runCommand, read]
  cases Action.execute request { m with journal } with
  | ok flow m' => rfl
  | error halt m' =>
    cases halt with
    | fault f => rfl
    | diagnostic d => exact trace_report m' d

theorem exists_reads_runCommand (asks : Asks text .backtrace)
    (environment : m.target.environment.isSome) :
    ∃ frames : List UInt64,
      (∀ frame ∈ frames, m.options.stackFloor.word ≤ frame) ∧
      (m.after (runCommand text)).trace.toList = m.trace.toList ++ frames.flatMap frameReads ∧
      (m.Unlimited → m.target.framePointer ≠ 0 → m.unwindEnd? m.target.framePointer 0 = none →
        m.target.framePointer ∈ frames) := by
  obtain ⟨journal, trace⟩ := exists_trace_runCommand_eq asks m
  obtain ⟨frames, floors, reads, first⟩ :=
    Action.exists_reads_backtrace { m with journal } environment
  refine ⟨frames, floors, ?_, first⟩
  have answered : ({ m with journal }.after (Action.execute .backtrace)).trace =
      ({ m with journal }.after Action.backtrace).trace :=
    congrArg (·.trace) (Action.after_bind_pure Flow.proceed)
  rw [trace, answered]
  exact reads

/-- What a backtrace reads while a user environment is current: frames whose pointers are at or above
the floor of the kernel stacks, eight words each and nothing else. So no word below the floor is
read, except where a frame runs over the end of the address space and goes on at its beginning. -/
theorem runCommand_backtrace_reads (asks : Asks text .backtrace)
    (environment : m.target.environment.isSome) :
    ∃ frames : List UInt64,
      (∀ frame ∈ frames, m.options.stackFloor.word ≤ frame) ∧
      (m.after (runCommand text)).trace.toList = m.trace.toList ++ frames.flatMap frameReads ∧
      ∀ va, .readWord va ∈ frames.flatMap frameReads →
        m.options.stackFloor ≤ va ∨
          va.word.toNat < 56 ∧
            ∃ frame ∈ frames, ∃ i < 8, frame.toNat + 8 * i = UInt64.size + va.word.toNat := by
  obtain ⟨frames, floors, reads, -⟩ := exists_reads_runCommand asks environment
  refine ⟨frames, floors, reads, ?_⟩
  intro va read
  obtain ⟨frame, member, read⟩ := List.mem_flatMap.1 read
  obtain ⟨i, hi, rfl⟩ := readWord_mem_frameReads.1 read
  have floor := UInt64.le_iff_toNat_le.1 (floors frame member)
  rcases toNat_frameSlot frame hi with inside | wrapped
  · left
    rw [Address.le_iff, inside]
    omega
  · right
    have bound := frame.toNat_lt_size
    exact ⟨by omega, frame, member, i, hi, wrapped⟩

/-- A machine that runs a user environment, with a frame pointer in the last word of memory. -/
def lastFrame : Monitor :=
  { target := { framePointer := 0xfffffffffffffff8, environment := some 1 } }

theorem runCommand_backtrace_reads_lastFrame :
    ∃ frames : List UInt64,
      (lastFrame.after (runCommand "backtrace")).trace.toList = frames.flatMap frameReads ∧
      ∀ va, .readWord va ∈ frames.flatMap frameReads →
        AddressMap.stackFloor ≤ va ∨ va.word.toNat < 56 := by
  have asks : Asks "backtrace" .backtrace := by decide +kernel
  obtain ⟨frames, -, reads, bounds⟩ := runCommand_backtrace_reads (m := lastFrame) asks rfl
  exact ⟨frames, reads, fun va read => (bounds va read).imp_right And.left⟩

/-- The frame there is read, and its second word lies at the beginning of memory. -/
theorem readWord_below_stackFloor :
    Asks "backtrace" .backtrace ∧ lastFrame.target.environment.isSome ∧
      .readWord ⟨8⟩ ∈ (lastFrame.after (runCommand "backtrace")).trace.toList ∧
      ¬ lastFrame.options.stackFloor ≤ ⟨8⟩ := by
  have asks : Asks "backtrace" .backtrace := by decide +kernel
  obtain ⟨frames, -, reads, first⟩ := exists_reads_runCommand (m := lastFrame) asks rfl
  have member : 0xfffffffffffffff8 ∈ frames := first rfl (by decide) rfl
  refine ⟨asks, rfl, ?_, by decide⟩
  rw [reads]
  apply List.mem_append_right
  exact List.mem_flatMap.2 ⟨_, member, readWord_mem_frameReads.2 ⟨2, by decide, rfl⟩⟩

end Monitor

end DebugMonitor
