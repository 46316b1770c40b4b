/-!
# Words of a text

A text is cut at every run of separators, and a separator is one of four bytes: a tab, a carriage return,
a newline or a space. Nothing else separates: there is no quoting, and other white space of Unicode is
part of a word.

The scan goes through the bytes of the UTF-8 form of the text and gives the span of each word, the place
of its first byte and the place behind its last. `slice?` is the part of a text in a span; there is none
when an end of the span lies within a character.

The two equations `spansFrom_separator` and `spansFrom_run` determine the spans: a separator is skipped,
and a maximal run of other bytes is the next word.
-/

namespace DebugMonitor.Text

/-- The bytes of the UTF-8 form of a text. -/
def utf8 (text : String) : List UInt8 :=
  text.toUTF8.data.toList

/-- The bytes that separate words. -/
def separators : List UInt8 :=
  [0x09, 0x0d, 0x0a, 0x20]

def isSeparator (b : UInt8) : Bool :=
  separators.contains b

/-- The spans of the words in `bytes`, the first of which is at place `pos`, with the word in progress,
if there is one, from where it starts. -/
def spansFrom (start? : Option Nat) (pos : Nat) : List UInt8 → List (Nat × Nat)
  | [] => (start?.map (·, pos)).toList
  | b :: bytes =>
    if isSeparator b then (start?.map (·, pos)).toList ++ spansFrom none (pos + 1) bytes
    else spansFrom (some (start?.getD pos)) (pos + 1) bytes

/-- The spans of the words of a text, from left to right. -/
def spans (text : String) : List (Nat × Nat) :=
  spansFrom none 0 (utf8 text)

/-- The part of a text in a span, if both ends of the span lie between characters. -/
def slice? (text : String) (span : Nat × Nat) : Option String := do
  let start ← text.pos? ⟨span.1⟩
  let stop ← text.pos? ⟨span.2⟩
  if start ≤ stop then some (text.extract start stop) else none

theorem spansFrom_separator {b : UInt8} {bytes : List UInt8} {pos : Nat} (h : isSeparator b = true) :
    spansFrom none pos (b :: bytes) = spansFrom none (pos + 1) bytes := by
  rw [spansFrom, if_pos h]
  rfl

private theorem spansFrom_append {run bytes : List UInt8} {start pos : Nat}
    (word : ∀ b ∈ run, isSeparator b = false) :
    spansFrom (some start) pos (run ++ bytes) = spansFrom (some start) (pos + run.length) bytes := by
  induction run generalizing pos with
  | nil => rfl
  | cons b run ih =>
    rw [List.forall_mem_cons] at word
    rw [List.cons_append, spansFrom, word.1, if_neg Bool.false_ne_true, Option.getD_some, ih word.2,
      List.length_cons, Nat.add_assoc, Nat.add_comm 1]

/-- A run of other bytes that ends at a separator or at the end of the text is one word. -/
theorem spansFrom_run {run bytes : List UInt8} {pos : Nat} (some : run ≠ [])
    (word : ∀ b ∈ run, isSeparator b = false) (behind : ∀ b ∈ bytes.head?, isSeparator b = true) :
    spansFrom none pos (run ++ bytes) =
      (pos, pos + run.length) :: spansFrom none (pos + run.length) bytes := by
  cases run with
  | nil => contradiction
  | cons b run =>
    rw [List.forall_mem_cons] at word
    rw [List.cons_append, spansFrom, word.1, if_neg Bool.false_ne_true, Option.getD_none,
      spansFrom_append word.2, List.length_cons, Nat.add_assoc, Nat.add_comm 1]
    cases bytes with
    | nil => rfl
    | cons c bytes =>
      have separates : isSeparator c = true := behind c rfl
      simp only [spansFrom, separates]
      rfl

end DebugMonitor.Text
