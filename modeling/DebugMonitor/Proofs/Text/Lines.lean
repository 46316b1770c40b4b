import DebugMonitor.Proofs.Text.Digits

/-!
# Lines

A line is a text without a newline, and `unlines` shows several lines, each ended by one. So the number
of newlines shown is the number of lines.
-/

namespace DebugMonitor

namespace Text

/-- A text within one line. -/
def IsLine (text : String) : Prop :=
  '\n' ∉ text.toList

instance (text : String) : Decidable (IsLine text) :=
  inferInstanceAs (Decidable (_ ∉ _))

/-- Several lines as one text. -/
def unlines (lines : List String) : String :=
  String.join (lines.map (· ++ "\n"))

@[simp] theorem unlines_nil : unlines [] = "" := String.join_nil

@[simp] theorem unlines_cons (line : String) (lines : List String) :
    unlines (line :: lines) = line ++ "\n" ++ unlines lines := by
  rw [unlines, List.map_cons, String.join_cons, unlines]

theorem IsLine.append {a b : String} (ha : IsLine a) (hb : IsLine b) : IsLine (a ++ b) := by
  rw [IsLine, String.toList_append, List.mem_append, not_or]
  exact ⟨ha, hb⟩

theorem isLine_hexPadded (width : Nat) (w : UInt64) : IsLine (hexPadded width w) :=
  fun newline => nomatch isBlank_of_mem_hexPadded newline

end Text

theorem Address.isLine_toString {space : Space} (a : Address space) : Text.IsLine (toString a) :=
  .append (by decide) (Text.isLine_hexPadded 16 a.word)

end DebugMonitor
