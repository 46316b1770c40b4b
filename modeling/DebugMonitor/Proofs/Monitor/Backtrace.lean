import DebugMonitor.Proofs.Monitor.Unwinding
import DebugMonitor.Proofs.Text.Lines
import Mathlib.Data.Nat.Find

/-!
# What a backtrace shows

The frame pointers form a chain: each is the word that memory holds at the one before. The chain has no
end of its own, it may run in a circle, so a backtrace follows it only up to the first frame at which
there is a reason to stop. `StopsAt` names the reasons, and one of them is the bound on frames, so there
is always such a frame.

A frame is shown by two lines: its eight words but the saved pointer, as memory holds them, and the place
of its return address. `linesWith` has the lines of several frames, for any places.

`unwind_frame` is the step for one frame and `unwind_frames` the run over those in front of the stop.
`runCommand_backtrace` says what is read and shown in all, on every terminal that takes the text.
-/

namespace DebugMonitor

open Command

/-- What is shown as the place of an address. -/
def SymbolTable.place (t : SymbolTable) (addr : UInt64) : String :=
  match t.resolve addr with
  | some l => s!"{l.file}:{l.line}: {l.function}+{(addr - l.functionStart).toNat}"
  | none => "<unknown>:0: <unknown>+0"

namespace StackFrame

/-- The line of a frame that shows its words. -/
def wordsLine (frame : StackFrame) : String :=
  "  rbp " ++ Text.hexPadded 16 frame.framePointer ++ "  rip " ++
    Text.hexPadded 16 frame.returnAddress ++ "  args" ++
    String.join (frame.arguments.map fun w => " " ++ Text.hexPadded 16 w) ++ "\n"

theorem render_eq (frame : StackFrame) (t : SymbolTable) :
    frame.render t =
      frame.wordsLine ++ "         " ++ t.place frame.returnAddress ++ "\n" := rfl

end StackFrame

namespace Target

/-- The frame pointers on the stack, innermost first. -/
def chain (t : Target) : Nat → UInt64
  | 0 => t.framePointer
  | i + 1 => t.word ⟨t.chain i⟩

/-- The frame belongs to another address space: a user environment is current, and the frame lies below
the kernel stacks. -/
def LeavesKernel (t : Target) (o : Options) (i : Nat) : Prop :=
  t.environment.isSome ∧ t.chain i < o.stackFloor.word

/-- A backtrace does not show frame `i`: there is none, or it is not the kernel's, or enough were
shown. -/
def StopsAt (t : Target) (o : Options) (i : Nat) : Prop :=
  t.chain i = 0 ∨ t.LeavesKernel o i ∨ i = o.maxFrames.toNat

instance (t : Target) (o : Options) (i : Nat) : Decidable (t.LeavesKernel o i) :=
  inferInstanceAs (Decidable (_ ∧ _))

instance (t : Target) (o : Options) : DecidablePred (t.StopsAt o) :=
  fun _ => inferInstanceAs (Decidable (_ ∨ _ ∨ _))

/-- The lines of the first `k` frames of a stack, with these places. -/
def linesWith (t : Target) (place : Nat → String) (k : Nat) : String :=
  String.join ((List.range k).map fun i =>
    (t.frameAt (t.chain i)).wordsLine ++ "         " ++ place i ++ "\n")

/-- The lines of the first `k` frames, each with the place of its return address. -/
def frameLines (t : Target) (k : Nat) : String :=
  t.linesWith (fun i => t.symbols.place (t.frameAt (t.chain i)).returnAddress) k

/-- What follows the lines of the frames when frame `k` is not shown. -/
def stopLine (t : Target) (o : Options) (k : Nat) : String :=
  if t.chain k = 0 then ""
  else if t.LeavesKernel o k then
    "  <frame pointer 0x" ++ Text.hexPadded 16 (t.chain k) ++
      ": below kernel stack, continues in another address space>\n"
  else "  <frame limit reached>\n"

/-- The text of a backtrace that shows the first `k` frames. -/
def backtraceText (t : Target) (o : Options) (k : Nat) : String :=
  "Stack backtrace:\n" ++ t.frameLines k ++ t.stopLine o k

/-- What the trace shows of reading the first `k` frames, eight words each. -/
def backtraceReads (t : Target) (k : Nat) : List Effect :=
  (List.range k).flatMap fun i => frameReads (t.chain i)

variable {t : Target} {o : Options} {i k : Nat}

/-- The saved frame pointer of a frame is the next link of the chain. -/
@[simp] theorem next_frameAt_chain (t : Target) (i : Nat) :
    (t.frameAt (t.chain i)).next = t.chain (i + 1) := by
  have slot : frameSlot (t.chain i) 0 = ⟨t.chain i⟩ := by
    rw [frameSlot]
    exact congrArg Address.mk (UInt64.add_zero _)
  rw [frameAt, slot, chain]

/-- However the chain runs, there is a first frame at which a backtrace stops. -/
theorem exists_stopsAt (t : Target) (o : Options) :
    ∃ k, t.StopsAt o k ∧ ∀ i < k, ¬ t.StopsAt o i :=
  let least := Nat.findX (p := t.StopsAt o) ⟨o.maxFrames.toNat, .inr (.inr rfl)⟩
  ⟨least.1, least.2⟩

/-- The first stop is not behind the bound on frames. -/
theorem le_maxFrames_of_forall_not_stopsAt (goes : ∀ i < k, ¬ t.StopsAt o i) :
    k ≤ o.maxFrames.toNat := by
  rcases Nat.lt_or_ge o.maxFrames.toNat k with beyond | upTo
  · exact absurd (.inr (.inr rfl)) (goes _ beyond)
  · exact upTo

theorem frameLines_succ (t : Target) (k : Nat) :
    t.frameLines (k + 1) = t.frameLines k ++ (t.frameAt (t.chain k)).render t.symbols := by
  simp only [frameLines, linesWith, StackFrame.render_eq, List.range_succ, List.map_append,
    String.join_append, List.map_singleton, String.join_cons, String.join_nil, String.append_empty]

theorem backtraceReads_succ (t : Target) (k : Nat) :
    t.backtraceReads (k + 1) = t.backtraceReads k ++ frameReads (t.chain k) := by
  simp only [backtraceReads, List.range_succ, List.flatMap_append, List.flatMap_singleton]

@[simp] theorem length_backtraceReads (t : Target) (k : Nat) :
    (t.backtraceReads k).length = 8 * k := by
  have words (i : Nat) : (frameReads (t.chain i)).length = 8 := rfl
  simp only [backtraceReads, List.length_flatMap, words, List.map_const', List.length_range,
    List.sum_replicate_nat, Nat.mul_comm]

end Target

namespace Monitor

variable {m : Monitor} {i k : Nat}

/-- The monitor after the first `k` frames were read and shown. -/
def unwound (m : Monitor) (k : Nat) : Monitor :=
  (m.recordAll (m.target.backtraceReads k)).say (m.target.frameLines k)

@[simp] theorem unwound_zero (m : Monitor) : m.unwound 0 = m := by
  simp [unwound, Target.backtraceReads, Target.frameLines, Target.linesWith]

theorem unwound_succ (m : Monitor) (k : Nat) :
    m.unwound (k + 1) = ((m.unwound k).recordAll (frameReads (m.target.chain k))).say
      ((m.target.frameAt (m.target.chain k)).render m.target.symbols) := by
  rw [unwound, Target.backtraceReads_succ, Target.frameLines_succ, ← recordAll_recordAll, ← say_say]
  rfl

/-- The counter of an unwinding has not wrapped around when it meets the bound. -/
theorem ofNat_eq_maxFrames_iff {o : Options} (upTo : k ≤ o.maxFrames.toNat) :
    UInt64.ofNat k = o.maxFrames ↔ k = o.maxFrames.toNat := by
  have bound := o.maxFrames.toNat_lt_size
  have value : (UInt64.ofNat k).toNat = k := UInt64.toNat_ofNat_of_lt' (by omega)
  rw [← UInt64.toNat_inj, value]

theorem unwindEnd?_eq_none_of_not_stopsAt (upTo : i ≤ m.options.maxFrames.toNat)
    (goes : ¬ m.target.StopsAt m.options i) :
    m.unwindEnd? (m.target.chain i) (UInt64.ofNat i) = none := by
  simp only [Target.StopsAt, Target.LeavesKernel, not_or, not_and] at goes
  refine unwindEnd?_eq_none_iff.2 ⟨fun current => UInt64.not_lt.1 (goes.2.1 current), ?_⟩
  exact fun limit => goes.2.2 ((ofNat_eq_maxFrames_iff upTo).1 limit)

/-- At a stop that is not the end of the chain a line tells of the reason. -/
theorem exists_unwindEnd?_eq_some (upTo : k ≤ m.options.maxFrames.toNat)
    (nonzero : m.target.chain k ≠ 0) (stops : m.target.StopsAt m.options k) :
    ∃ line, m.unwindEnd? (m.target.chain k) (UInt64.ofNat k) = some line ∧
      line ++ "\n" = m.target.stopLine m.options k := by
  by_cases leaves : m.target.LeavesKernel m.options k
  · refine ⟨_, if_pos leaves, ?_⟩
    simp only [Target.stopLine, if_neg nonzero, if_pos leaves, String.append_assoc]
    rfl
  · have limit : UInt64.ofNat k = m.options.maxFrames :=
      (ofNat_eq_maxFrames_iff upTo).2 ((stops.resolve_left nonzero).resolve_left leaves)
    refine ⟨_, (if_neg leaves).trans (if_pos limit), ?_⟩
    simp only [Target.stopLine, if_neg nonzero, if_neg leaves]
    rfl

end Monitor

namespace Action

variable {m : Monitor} {i k : Nat}

/-- Where there is no reason to stop, the next frame of the chain is read and shown. -/
theorem unwind_frame (unlimited : m.Unlimited) (upTo : i ≤ m.options.maxFrames.toNat)
    (goes : ¬ m.target.StopsAt m.options i) :
    unwind (m.target.chain i) (UInt64.ofNat i) (m.unwound i) =
      unwind (m.target.chain (i + 1)) (UInt64.ofNat (i + 1)) (m.unwound (i + 1)) := by
  have nonzero : m.target.chain i ≠ 0 := fun zero => goes (.inl zero)
  have below : i < m.options.maxFrames.toNat :=
    Nat.lt_of_le_of_ne upTo fun limit => goes (.inr (.inr limit))
  have succ : Word.add (UInt64.ofNat i) 1 = .ok (UInt64.ofNat (i + 1)) := by
    have bound := m.options.maxFrames.toNat_lt_size
    have value : (UInt64.ofNat i).toNat = i := UInt64.toNat_ofNat_of_lt' (by omega)
    have value' : (UInt64.ofNat (i + 1)).toNat = i + 1 := UInt64.toNat_ofNat_of_lt' (by omega)
    refine Word.add_eq_ok_iff.2 ?_
    rw [value, value']
    rfl
  have reads := unwind_eq (m := m.unwound i) nonzero
    (Monitor.unwindEnd?_eq_none_of_not_stopsAt (m := m.unwound i) upTo goes)
  rw [reads, Monitor.unwound_succ]
  refine (run_bind _ (run_print (by exact unlimited) _)).trans ?_
  simp only [succ]
  exact congrArg (fun fp => unwind fp _ _) (m.target.next_frameAt_chain i)

/-- The frames in front of a stop are read and shown one after another. -/
theorem unwind_frames (unlimited : m.Unlimited)
    (goes : ∀ i < k, ¬ m.target.StopsAt m.options i) :
    unwind m.target.framePointer 0 m =
      unwind (m.target.chain k) (UInt64.ofNat k) (m.unwound k) := by
  induction k with
  | zero => exact congrArg (unwind m.target.framePointer 0) m.unwound_zero.symm
  | succ k ih =>
    have upTo := Target.le_maxFrames_of_forall_not_stopsAt goes
    have earlier := ih fun i below => goes i (Nat.lt_succ_of_lt below)
    exact earlier.trans (unwind_frame unlimited (Nat.le_of_succ_le upTo) (goes k (Nat.lt_succ_self k)))

/-- At the first stop the reason is shown, and the unwinding is over. -/
theorem unwind_stop (unlimited : m.Unlimited) (upTo : k ≤ m.options.maxFrames.toNat)
    (stops : m.target.StopsAt m.options k) :
    unwind (m.target.chain k) (UInt64.ofNat k) (m.unwound k) =
      .ok () ((m.unwound k).say (m.target.stopLine m.options k)) := by
  by_cases zero : m.target.chain k = 0
  · have silent : m.target.stopLine m.options k = "" := if_pos zero
    simp [zero, unwind_zero, silent, pure, EStateM.pure]
  · obtain ⟨line, ends, told⟩ :=
      Monitor.exists_unwindEnd?_eq_some (m := m.unwound k) upTo zero stops
    rw [unwind_eq_printLine zero ends, printLine, told]
    exact run_print (by exact unlimited) _

/-- A backtrace shows the frames in front of the first stop, and then why it stopped. -/
theorem backtrace_eq_ok (unlimited : m.Unlimited) (stops : m.target.StopsAt m.options k)
    (goes : ∀ i < k, ¬ m.target.StopsAt m.options i) :
    backtrace m = .ok () ((m.recordAll (m.target.backtraceReads k)).say
      (m.target.backtraceText m.options k)) := by
  let headed := m.say "Stack backtrace:\n"
  have unlimited₁ : headed.Unlimited := unlimited.say _
  have upTo := Target.le_maxFrames_of_forall_not_stopsAt goes
  have frames : unwind headed.target.framePointer 0 headed =
      unwind (m.target.chain k) (UInt64.ofNat k) (headed.unwound k) :=
    unwind_frames unlimited₁ goes
  have stop : unwind (m.target.chain k) (UInt64.ofNat k) (headed.unwound k) =
      .ok () ((headed.unwound k).say (m.target.stopLine m.options k)) :=
    unwind_stop unlimited₁ upTo stops
  have heading : headed.unwound k = (m.recordAll (m.target.backtraceReads k)).say
      ("Stack backtrace:\n" ++ m.target.frameLines k) :=
    (m.recordAll (m.target.backtraceReads k)).say_say "Stack backtrace:\n" _
  have whole : (headed.unwound k).say (m.target.stopLine m.options k) =
      (m.recordAll (m.target.backtraceReads k)).say (m.target.backtraceText m.options k) :=
    (congrArg (Monitor.say · _) heading).trans (Monitor.say_say _ _ _)
  rw [← whole, ← stop, ← frames]
  exact run_bind _ (run_print unlimited _)

end Action

namespace Monitor

variable {text : String} {m : Monitor}

/-- What a backtrace does, whatever memory holds. Let `k` be the first frame of the chain at which there
is a reason to stop. The frames in front of it are read, eight words each, and shown; the reason follows,
unless it is the end of the chain; and that is all. On a terminal that fails the line comes to its end
as well. -/
theorem runCommand_backtrace (asks : Asks text .backtrace) :
    ∃ k, m.target.StopsAt m.options k ∧ (∀ i < k, ¬ m.target.StopsAt m.options i) ∧
      (m.target.backtraceReads k).length = 8 * k ∧
      (∃ m', m.runCommand text = .ok .proceed m') ∧
      ∀ t, m.terminal.write (m.target.backtraceText m.options k) = (true, t) →
        ∃ journal, m.runCommand text =
          .ok .proceed { (m.recordAll (m.target.backtraceReads k)).withTerminal t with journal } := by
  obtain ⟨k, stops, goes⟩ := m.target.exists_stopsAt m.options
  -- What the line does on a terminal that takes the text, this monitor's own or another one.
  have run {t t' : Terminal} (taken : t.write (m.target.backtraceText m.options k) = (true, t')) :
      ∃ journal, (m.withTerminal t).runCommand text =
        .ok .proceed { (m.recordAll (m.target.backtraceReads k)).withTerminal t' with journal } := by
    refine exists_runCommand_eq_of_taken asks (fun journal => ⟨journal, ?_⟩) taken
    exact Action.run_bind _ <|
      Action.backtrace_eq_ok (m := { m.withTerminal {} with journal }) rfl stops goes
  obtain ⟨journal, ran⟩ := run (t := {}) (Terminal.write_of_limit_eq_none rfl)
  exact ⟨k, stops, goes, m.target.length_backtraceReads k, exists_runCommand_eq_proceed ran,
    fun t => run⟩

/-- A machine whose memory holds the frame pointer everywhere, so that its first frame is its own
caller. -/
def circular : Monitor :=
  { target := { framePointer := 0x0101010101010101, stray := fun _ => 1 }
    options := { maxFrames := 3 } }

/-- Three frames are read there, and the bound is told behind them. -/
theorem runCommand_backtrace_circular :
    ∃ m', circular.runCommand "backtrace" = .ok .proceed m' ∧ m'.trace.size = 24 ∧
      m'.terminal.shown = Text.unlines
        ["Stack backtrace:",
          "  rbp 0101010101010101  rip 0101010101010101  args 0101010101010101 0101010101010101 " ++
            "0101010101010101 0101010101010101 0101010101010101 0101010101010101",
          "         <unknown>:0: <unknown>+0",
          "  rbp 0101010101010101  rip 0101010101010101  args 0101010101010101 0101010101010101 " ++
            "0101010101010101 0101010101010101 0101010101010101 0101010101010101",
          "         <unknown>:0: <unknown>+0",
          "  rbp 0101010101010101  rip 0101010101010101  args 0101010101010101 0101010101010101 " ++
            "0101010101010101 0101010101010101 0101010101010101 0101010101010101",
          "         <unknown>:0: <unknown>+0",
          "  <frame limit reached>"] := by
  have asks : Asks "backtrace" .backtrace := by decide +kernel
  obtain ⟨k, stops, goes, reads, -, run⟩ := runCommand_backtrace (m := circular) asks
  have upTo : k ≤ 3 := Target.le_maxFrames_of_forall_not_stopsAt goes
  have further : ∀ i < 3, ¬ circular.target.StopsAt circular.options i := by decide
  have three : k = 3 := Nat.le_antisymm upTo (Nat.not_lt.1 fun early => further k early stops)
  subst three
  obtain ⟨journal, ran⟩ := run _ (Terminal.write_of_limit_eq_none rfl)
  refine ⟨_, ran, ?_, String.empty_append.trans (by decide +kernel)⟩
  have marks := toList_trace_recordAll circular (circular.target.backtraceReads 3)
  calc (circular.recordAll (circular.target.backtraceReads 3)).trace.size
    _ = (circular.target.backtraceReads 3).length := by
      rw [← Array.length_toList, marks]
      rfl
    _ = 24 := reads

end Monitor

end DebugMonitor
