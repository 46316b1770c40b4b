import DebugMonitor.Proofs.Monitor.Output
import DebugMonitor.Proofs.Monitor.Transcript

/-!
# Lines on a terminal with a limit

A terminal that fails cuts the output of a line off and does nothing else to it. What is accepted
under a limit is a first part of what the line shows without one, as long as the limit says, and the
session goes on as it would have gone on. If the failure lifts the limit, a command that was
cut short says so in one more line, while a diagnostic that was cut short is left as it is.
`runCommand_truncates` says this for every line, every state and every limit.
-/

namespace DebugMonitor

open Command

namespace Terminal

/-- The terminal under another limit, and none after it. -/
def withLimit (t : Terminal) (limit : Option Limit) : Terminal :=
  { t with limit, later := [] }

/-- The terminal after more was shown. -/
def showing (t : Terminal) (chars : List Char) : Terminal :=
  { t with shown := t.shown ++ String.ofList chars }

variable {t : Terminal} {text : String} {n : Nat} {once : Bool}

theorem write_withLimit_none :
    (t.withLimit none).write text = (true, (t.showing text.toList).withLimit none) := by
  rw [write_of_limit_eq_none rfl, withLimit, withLimit, showing, String.ofList_toList]

theorem write_withLimit_of_le (fits : text.length ≤ n) :
    (t.withLimit (some ⟨n, once⟩)).write text =
      (true, (t.showing text.toList).withLimit (some ⟨n - text.length, once⟩)) := by
  simp [write, withLimit, showing, fits]

/-- A failure lifts the limit once, or leaves no room at all. -/
theorem write_withLimit_of_lt (short : n < text.length) :
    (t.withLimit (some ⟨n, once⟩)).write text =
      (false, (t.showing (text.toList.take n)).withLimit
        (if once then none else some ⟨0, false⟩)) := by
  cases once <;> simp [write, withLimit, showing, Nat.not_le.2 short]

theorem shown_write_of_full (t : Terminal) (text : String) :
    ((t.withLimit (some ⟨0, false⟩)).write text).2.shown = t.shown := by
  rcases Nat.eq_zero_or_pos text.length with empty | some
  · rw [write_withLimit_of_le (Nat.le_of_eq empty), String.length_eq_zero_iff.1 empty]
    simp [showing, withLimit]
  · rw [write_withLimit_of_lt some]
    simp [showing, withLimit]

end Terminal

namespace Monitor

/-- The monitor at its terminal under a limit. -/
def limited (m : Monitor) (limit : Option Terminal.Limit) : Monitor :=
  m.withTerminal (m.terminal.withLimit limit)

variable {m m' : Monitor} {text : String} {flow : Flow} {n : Nat}

theorem screen_withTerminal_showing (m m' : Monitor) (limit : Option Terminal.Limit)
    (chars : List Char) :
    (m'.withTerminal ((m.terminal.showing chars).withLimit limit)).screen = m.screen ++ chars := by
  change (m.terminal.shown ++ String.ofList chars).toList = _
  rw [String.toList_append, String.toList_ofList]
  rfl

/-- Under a limit that is large enough a transcript ends as it does without one. -/
theorem exists_answer_limited_of_le {r : Transcript Flow} {closing : String} {once : Bool}
    (ending : r.ending = .ok flow m') (fits : r.text.length ≤ n) :
    ∃ m₁, r.answer closing (m.terminal.withLimit (some ⟨n, once⟩)) = .ok flow m₁ ∧
      m₁.screen = m.screen ++ r.text.toList := by
  rw [Transcript.answer, Terminal.write_withLimit_of_le fits, ending]
  exact ⟨_, rfl, screen_withTerminal_showing m m' _ _⟩

/-- Under a lasting limit that is too small nothing is shown after the cut. -/
theorem exists_answer_limited_of_lt {r : Transcript Flow} {closing : String}
    (short : n < r.text.length) :
    ∃ m₁, r.answer closing (m.terminal.withLimit (some ⟨n, false⟩)) = .ok .proceed m₁ ∧
      m₁.screen = m.screen ++ r.text.toList.take n := by
  rw [Transcript.answer, Terminal.write_withLimit_of_lt short]
  refine ⟨_, rfl, ?_⟩
  rw [screen]
  dsimp only [withTerminal]
  rw [if_neg Bool.false_ne_true, Terminal.shown_write_of_full]
  exact screen_withTerminal_showing m m none _

/-- Under a limit that is too small and lifted by the failure the closing line follows the cut. -/
theorem exists_answer_limited_once_of_lt {r : Transcript Flow} (closing : String)
    (short : n < r.text.length) :
    ∃ m₁, r.answer closing (m.terminal.withLimit (some ⟨n, true⟩)) = .ok .proceed m₁ ∧
      m₁.screen = m.screen ++ r.text.toList.take n ++ closing.toList := by
  rw [Transcript.answer, Terminal.write_withLimit_of_lt short, if_pos rfl]
  refine ⟨_, rfl, ?_⟩
  rw [screen]
  dsimp only [withTerminal]
  rw [Terminal.write_withLimit_none]
  change (((m.terminal.showing (r.text.toList.take n)).shown) ++
    String.ofList closing.toList).toList = _
  rw [String.toList_append, String.toList_ofList]
  exact congrArg (· ++ closing.toList) (screen_withTerminal_showing m m none _)

/-- What a limit of the terminal does to a line that does not fault without one. The flow is the
same in every case. Under a lasting limit of `n` characters the first `n` characters of the output
are accepted. If the failure lifts the limit, they are followed by the line that tells of the
failure, unless the output is the diagnostic of a refused line. -/
theorem runCommand_truncates (run : (m.limited none).runCommand text = .ok flow m') :
    ∃ output : List Char, m'.screen = m.screen ++ output ∧
      (∀ n, ∃ m₁, (m.limited (some ⟨n, false⟩)).runCommand text = .ok flow m₁ ∧
        m₁.screen = m.screen ++ output.take n) ∧
      ∀ n < output.length, ∃ m₁, (m.limited (some ⟨n, true⟩)).runCommand text = .ok flow m₁ ∧
        match refusal? m.context.isSome (Line.wordsOf text) with
        | some message =>
          output = (message ++ "\n").toList ∧ m₁.screen = m.screen ++ output.take n
        | none => m₁.screen = m.screen ++ output.take n ++ "console write failed\n".toList := by
  obtain ⟨r, answers⟩ := m.exists_answers text
  rw [limited, answers.run, Transcript.answer_eq_ok_iff, Terminal.write_withLimit_none] at run
  obtain ⟨m₀, ending, same⟩ : ∃ m₀, r.ending = .ok flow m₀ ∧
      m' = m₀.withTerminal ((m.terminal.showing r.text.toList).withLimit none) := by
    rcases run with ⟨-, ended⟩ | ⟨failed, -⟩
    · exact ended
    · cases failed
  -- A text that can be cut is not empty, so a line that resumes is never cut.
  have proceeds {n : Nat} (short : n < r.text.length) : flow = .proceed := by
    cases flow with
    | proceed => rfl
    | resume =>
      rw [answers.resumes m₀ ending] at short
      cases short
  refine ⟨r.text.toList, ?_, ?_, ?_⟩
  · rw [same]
    exact screen_withTerminal_showing m m₀ none _
  · intro n
    rw [limited, answers.run]
    rcases Nat.lt_or_ge n r.text.length with short | fits
    · rw [proceeds short]
      exact exists_answer_limited_of_lt short
    · rw [List.take_of_length_le (by rwa [String.length_toList])]
      exact exists_answer_limited_of_le ending fits
  · intro n short
    rw [String.length_toList] at short
    obtain ⟨m₁, answered, screen⟩ := exists_answer_limited_once_of_lt (m := m)
      (closing (refusal? m.context.isSome (Line.wordsOf text)).isSome) short
    refine ⟨m₁, ?_, ?_⟩
    · rw [limited, answers.run, proceeds short]
      exact answered
    · cases named : refusal? m.context.isSome (Line.wordsOf text) with
      | some message =>
        rw [named] at screen
        refine ⟨congrArg String.toList (answers.refused message named), screen.trans ?_⟩
        exact List.append_nil _
      | none =>
        rw [named] at screen
        exact screen

/-- Nine characters into the answer of a machine that stays on the terminal fails, and recovers. -/
theorem runCommand_truncates_shutdown :
    ∃ m₁, (limited {} (some ⟨9, true⟩)).runCommand "shutdown" = .ok .proceed m₁ ∧
      m₁.screen = "Shutdown console write failed\n".toList := by
  have run : (limited {} none).runCommand "shutdown" =
      .ok .proceed ((limited {} none).after (runCommand "shutdown")) := rfl
  obtain ⟨output, shown, -, once⟩ := runCommand_truncates run
  have all : output = "Shutdown failed!\n".toList := by
    rw [← List.nil_append output]
    exact shown.symm
  have accepted : refusal? false (Line.wordsOf "shutdown") = none := rfl
  obtain ⟨m₁, cut, screen⟩ := once 9 (by rw [all]; decide)
  dsimp only [Option.isSome_none] at screen
  rw [accepted, all] at screen
  exact ⟨m₁, cut, screen⟩

end Monitor

end DebugMonitor
