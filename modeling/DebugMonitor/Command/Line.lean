import DebugMonitor.Command.Diagnostic
import DebugMonitor.Text.Words

/-!
# Command lines

A command line is a text with the spans of its words: the name of the command and its arguments. It has
fewer than `argumentLimit` words; a longer line is refused as a whole.
-/

namespace DebugMonitor.Command

def argumentLimit : Nat := 16

structure Line where
  text : String
  /-- Where the words start and end, in bytes. -/
  spans : List (Nat × Nat)
  length_lt : spans.length < argumentLimit

namespace Line

def ofString (text : String) : Except Diagnostic Line :=
  if h : (Text.spans text).length < argumentLimit then .ok ⟨text, Text.spans text, h⟩
  else .error (.tooManyArguments argumentLimit)

def length (line : Line) : Nat := line.spans.length

def isEmpty (line : Line) : Bool := line.spans.isEmpty

/-- The word at a position; the name of the command is at position 0. -/
def get? (line : Line) (i : Nat) : Option String :=
  line.spans[i]?.bind (Text.slice? line.text)

def name? (line : Line) : Option String := line.get? 0

/-- All words in order. -/
def words (line : Line) : List String :=
  (List.range line.length).filterMap line.get?

end Line

end DebugMonitor.Command
