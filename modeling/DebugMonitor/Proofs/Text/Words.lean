/-!
# Words as lists of characters

The words of a text by its characters: a blank is a space, a tab, a carriage return or a newline, and a
word is a maximal run of other characters.

The two equations `words_blank_cons` and `words_append` determine the result: leading blanks are
skipped, and a maximal run of other characters is the next word.
-/

namespace DebugMonitor.Text

def isBlank (c : Char) : Bool :=
  c == ' ' || c == '\t' || c == '\r' || c == '\n'

/-- The words of `cs`, where `run` holds the characters of the word in progress, last one first. -/
def wordsFrom (run : List Char) : List Char → List (List Char)
  | [] => if run = [] then [] else [run.reverse]
  | c :: cs =>
    if isBlank c then
      if run = [] then wordsFrom [] cs else run.reverse :: wordsFrom [] cs
    else
      wordsFrom (c :: run) cs

/-- The maximal runs of characters that are not blank, in order. -/
def words (cs : List Char) : List (List Char) :=
  wordsFrom [] cs

@[simp] theorem words_nil : words [] = [] := rfl

theorem words_blank_cons {c : Char} {cs : List Char} (h : isBlank c = true) :
    words (c :: cs) = words cs := by
  simp [words, wordsFrom, h]

private theorem wordsFrom_append {run w cs : List Char} (h : ∀ c ∈ w, isBlank c = false) :
    wordsFrom run (w ++ cs) = wordsFrom (w.reverse ++ run) cs := by
  induction w generalizing run with
  | nil => rfl
  | cons c w ih =>
    have hc : isBlank c = false := h c (List.mem_cons_self ..)
    simp only [List.cons_append, wordsFrom, hc, Bool.false_eq_true, if_false,
      ih fun d hd => h d (List.mem_cons_of_mem _ hd), List.reverse_cons, List.append_assoc,
      List.nil_append]

/-- A run of characters that ends at a blank or at the end of the line is one word. -/
theorem words_append {w cs : List Char} (hw : w ≠ []) (h : ∀ c ∈ w, isBlank c = false)
    (hcs : ∀ c ∈ cs.head?, isBlank c = true) : words (w ++ cs) = w :: words cs := by
  have hr : w.reverse ≠ [] := by simpa using hw
  unfold words
  rw [wordsFrom_append h, List.append_nil]
  cases cs with
  | nil => simp [wordsFrom, hr]
  | cons c cs =>
    have hc : isBlank c = true := hcs c rfl
    simp [wordsFrom, hr, hc]

end DebugMonitor.Text
