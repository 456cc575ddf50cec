/-
White space: the Unicode property `White_Space`, trimming by it, and blank texts.

* `isBlank` — whether a character is white space;
* `Text.trim` — a text without the white space at both ends;
* `Text.isBlankText` — whether a text has nothing but white space.
-/
import SyntaxEdit.Text.Basic
import SyntaxEdit.Text.CharRanges

namespace SyntaxEdit

/-- The code points with the property `White_Space`. -/
def blankRanges : CharRanges :=
  [(0x9, 0xD), (0x20, 0x20), (0x85, 0x85), (0xA0, 0xA0), (0x1680, 0x1680), (0x2000, 0x200A),
   (0x2028, 0x2029), (0x202F, 0x202F), (0x205F, 0x205F), (0x3000, 0x3000)]

/-- Whether a character is white space. -/
def isBlank (c : Char) : Bool :=
  blankRanges.contains c

/-- Spaces and tabs, the characters that indent a line. -/
def isIndent (c : Char) : Bool :=
  c = ' ' || c = '\t'

namespace Text

/-- A text without the white space at its start. -/
def trimStart (t : Text) : Text :=
  t.dropWhile isBlank

/-- A text without the white space at its end. -/
def trimEnd (t : Text) : Text :=
  trimEndWhile isBlank t

/-- A text without the white space at both ends. -/
def trim (t : Text) : Text :=
  trimEnd (trimStart t)

/-- Whether a text has nothing but white space. -/
def isBlankText (t : Text) : Bool :=
  t.all isBlank

end Text

end SyntaxEdit
