/-
Quoted texts: one pair of equal delimiters around an inner text.

* `unquote?` — the inner text, if the text is quoted.

Triple double and triple single quotes are tried first, then one double quote, single quote or
backquote.
-/
import SyntaxEdit.Text.Basic

namespace SyntaxEdit

/-- The text between two copies of a delimiter, if the copies do not overlap. -/
def stripDelimiter? (delimiter t : Text) : Option Text :=
  if 2 * delimiter.length ≤ t.length ∧ delimiter.isPrefixOf t ∧ delimiter.isSuffixOf t then
    some ((t.drop delimiter.length).take (t.length - 2 * delimiter.length))
  else none

/-- The delimiters of quoted texts, in the order in which they are tried. -/
def quoteDelimiters : List Text :=
  [['"', '"', '"'], ['\'', '\'', '\''], ['"'], ['\''], ['`']]

/-- The inner text of a quoted text. -/
def unquote? (t : Text) : Option Text :=
  quoteDelimiters.findSome? fun delimiter => stripDelimiter? delimiter t

end SyntaxEdit
