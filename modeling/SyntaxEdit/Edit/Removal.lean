/-
The removal of a node from its text.

* `SyntaxTree.separatorEnd?` — the end of a separator that goes with a node;
* `SyntaxTree.textWithout` — the text without a node, and without its line if nothing is left on it.
-/
import SyntaxEdit.Splice
import SyntaxEdit.Text.Blank
import SyntaxEdit.Tree.SyntaxTree

namespace SyntaxEdit

namespace SyntaxTree

/-- The end of a semicolon or comma that follows a node with only spaces and tabs between. -/
def separatorEnd? (t : SyntaxTree) (n : Located) : Option Nat := do
  let next ← t.nextSibling? n
  if next.node.isNamed ∨ (next.type ≠ ";" ∧ next.type ≠ ",") then none
  else
    let gap ← Text.slice? t.source n.stop next.start
    if gap.all isIndent then some next.stop else none

end SyntaxTree

/-- The splice that removes a line with its line break; on the last line, the break before it. -/
def removeLine (t : Text) (start stop : Nat) : Splice :=
  if stop < Text.byteLength t then ⟨start, stop + 1, []⟩
  -- The line is the last one, and has no line break of its own.
  else if 0 < start then ⟨start - 1, stop, []⟩
  else ⟨start, stop, []⟩

/-- A text without the line around an offset if that line is blank. -/
def dropBlankLine (t : Text) (offset : Nat) : Except InvalidRange Text := do
  let start ← Text.lineStart t offset
  let stop ← Text.lineEnd t offset
  if Text.isBlankText (← Text.between t start stop) then (removeLine t start stop).apply t
  else return t

/-- The text of a tree without a node and the separator after it. -/
def SyntaxTree.textWithout (t : SyntaxTree) (n : Located) : Except InvalidRange Text := do
  let stop := (t.separatorEnd? n).getD n.stop
  let rest ← (Splice.mk n.start stop []).apply t.source
  dropBlankLine rest n.start

end SyntaxEdit
