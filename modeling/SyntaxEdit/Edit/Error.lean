/-
Why an edit of a tree fails.

* `EditError.message` — the wording of a failure.
-/
import SyntaxEdit.Text.Range

namespace SyntaxEdit

/-- Why an edit fails. -/
inductive EditError where
  /-- No node has a path; similar paths are suggested. -/
  | nodeNotFound (path : Text) (suggestions : List Text)
  /-- A semantic path names several nodes, which are described. -/
  | ambiguousPath (path : Text) (descriptions : List Text)
  /-- The node at a path has no body. -/
  | bodyNotFound (path : Text)
  /-- The edited text has more errors than the first text of the chain had; where the first of them
  stands, by line and column from 1. -/
  | syntaxErrorsIntroduced (count line column : Nat)
  /-- A range to replace is no part of the text. -/
  | invalidRange (range : InvalidRange)
deriving DecidableEq

namespace EditError

/-- The wording of suggestions after a path. -/
def suggestionText (suggestions : List Text) : Text :=
  if suggestions = [] then []
  else " (did you mean: ".toList ++ Text.joinWith ", ".toList suggestions ++ "?)".toList

/-- The wording of a failure. -/
def message : EditError → Text
  | nodeNotFound path suggestions =>
    "node not found: ".toList ++ path ++ suggestionText suggestions
  | ambiguousPath path descriptions =>
    "ambiguous path '".toList ++ path ++ "' matches ".toList ++
      Decimal.render descriptions.length ++ " nodes:".toList ++
      descriptions.flatMap fun description => "\n  - ".toList ++ description
  | bodyNotFound path => "no body found for '".toList ++ path ++ "'".toList
  | syntaxErrorsIntroduced count line column =>
    "edit introduces ".toList ++ Decimal.render count ++ " syntax error(s); first at ".toList ++
      Decimal.render line ++ ':' :: Decimal.render column
  | invalidRange range => range.message

end EditError

/-- A computation with offsets of a text, as a part of an edit. -/
def inText {α : Type} : Except InvalidRange α → Except EditError α
  | .ok a => .ok a
  | .error range => .error (.invalidRange range)

end SyntaxEdit
