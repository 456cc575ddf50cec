/-
A text as numbered lines, and edits by line number.

Lines are numbered from 1. Numbers outside the text are moved to its first or last line.

* `LineBuffer.ofText`, `LineBuffer.toText` — between a text and its lines;
* `LineBuffer.insertAfter`, `LineBuffer.remove`, `LineBuffer.replace` — the three edits;
* `Text.addLines`, `Text.removeLines`, `Text.updateLine` — the same on texts;
* `toText_ofText` — the lines of a text make up the text.
-/
import SyntaxEdit.Text.Basic

namespace SyntaxEdit

/-- The lines of a text, and whether a newline closes the last one. -/
structure LineBuffer where
  lines : List Text
  closed : Bool
deriving DecidableEq

namespace LineBuffer

/-- The lines of a text. The empty text has none. -/
def ofText (t : Text) : LineBuffer :=
  if t = [] then ⟨[], false⟩
  else if t.getLast? = some '\n' then ⟨Text.splitOn '\n' t.dropLast, true⟩
  else ⟨Text.splitOn '\n' t, false⟩

/-- The text of the lines. Where no line is left, nothing is closed. -/
def toText (b : LineBuffer) : Text :=
  Text.joinWith ['\n'] b.lines ++ if b.closed ∧ b.lines ≠ [] then ['\n'] else []

/-- The lines of a text make up the text. -/
theorem toText_ofText (t : Text) : (ofText t).toText = t := by
  simp only [ofText]
  split
  · rename_i empty
    simp [toText, Text.joinWith, empty]
  · rename_i nonempty
    split
    · rename_i closed
      have whole : t.dropLast ++ ['\n'] = t := by
        obtain ⟨front, rfl⟩ := List.getLast?_eq_some_iff.1 closed
        simp
      simp [toText, Text.joinWith_splitOn, Text.splitOn_ne_nil, whole]
    · simp [toText, Text.joinWith_splitOn]

/-- The lines with new ones after line `line`; 0 stands for the top, and numbers past the end for
the last line. An empty buffer becomes a closed one. -/
def insertAfter (b : LineBuffer) (line : Nat) (content : List Text) : LineBuffer :=
  let position := min line b.lines.length
  ⟨b.lines.take position ++ content ++ b.lines.drop position, b.closed || b.lines.isEmpty⟩

/-- The lines without those from `start` to `stop`, given in either order. -/
def remove (b : LineBuffer) (start stop : Nat) : LineBuffer :=
  let first := max 1 (min start stop)
  let last := min (max start stop) b.lines.length
  if last < first then b
  else ⟨b.lines.take (first - 1) ++ b.lines.drop last, b.closed⟩

/-- The lines with one of them replaced. An empty buffer takes the new lines and is closed. -/
def replace (b : LineBuffer) (line : Nat) (content : List Text) : LineBuffer :=
  if b.lines = [] then ⟨content, true⟩
  else
    let position := max 1 (min line b.lines.length) - 1
    ⟨b.lines.take position ++ content ++ b.lines.drop (position + 1), b.closed⟩

end LineBuffer

namespace Text

/-- A text with the lines of `content` after line `line`. -/
def addLines (t : Text) (line : Nat) (content : Text) : Text :=
  ((LineBuffer.ofText t).insertAfter line (LineBuffer.ofText content).lines).toText

/-- A text without the lines from `start` to `stop`. -/
def removeLines (t : Text) (start stop : Nat) : Text :=
  ((LineBuffer.ofText t).remove start stop).toText

/-- A text with line `line` replaced by the lines of `content`. -/
def updateLine (t : Text) (line : Nat) (content : Text) : Text :=
  ((LineBuffer.ofText t).replace line (LineBuffer.ofText content).lines).toText

end Text

end SyntaxEdit
