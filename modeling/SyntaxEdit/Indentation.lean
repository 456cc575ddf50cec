/-
Indentation shared by the lines of a block.

* `dedent` — a block without the blank lines around it and without the indentation that all its
  lines share;
* `indentBy` — a block with a prefix before every line that is not blank.
-/
import SyntaxEdit.Text.Blank
import SyntaxEdit.Text.LineBreak

namespace SyntaxEdit

/-- The number of spaces and tabs at the start of a line. -/
def indentWidth (line : Text) : Nat :=
  (line.takeWhile isIndent).length

/-- The lines of a block without the blank lines before and after it. -/
def innerLines (lines : List Text) : List Text :=
  ((lines.dropWhile Text.isBlankText).reverse.dropWhile Text.isBlankText).reverse

/-- The smallest indentation of the lines that are not blank; 0 if there are none. -/
def sharedIndent (lines : List Text) : Nat :=
  ((lines.filter (!Text.isBlankText ·)).map indentWidth).min?.getD 0

/-- A line without its first `width` characters and without white space at its end. Nothing is left
of a blank line. -/
def dedentLine (width : Nat) (line : Text) : Text :=
  if Text.isBlankText line then [] else Text.trimEnd (line.drop width)

/-- A block without blank lines around it and without the indentation that its lines share. -/
def dedent (content : Text) : Text :=
  let lines := innerLines (Text.rows content)
  Text.joinWith ['\n'] (lines.map (dedentLine (sharedIndent lines)))

/-- A block with a prefix before every line that is not blank; blank lines become empty. -/
def indentBy (linePrefix content : Text) : Text :=
  Text.joinWith ['\n'] ((Text.splitOn '\n' content).map fun line =>
    if Text.isBlankText line then [] else linePrefix ++ line)

end SyntaxEdit
