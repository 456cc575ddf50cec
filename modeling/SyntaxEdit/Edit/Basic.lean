/-
Edits, and the texts they make of a tree's text.

* `Edit` — an edit by line number or by path;
* `Edit.textAfter` — the edited text, or why the edit fails.
-/
import SyntaxEdit.Edit.Member
import SyntaxEdit.Edit.Removal
import SyntaxEdit.Edit.Target
import SyntaxEdit.LineBuffer

namespace SyntaxEdit

/-- An edit of a text with a tree. -/
inductive Edit where
  /-- Add the lines of `content` after a line; 0 is the top. -/
  | addLines (after : Nat) (content : Text)
  /-- Remove the lines from `start` to `stop`. -/
  | removeLines (start stop : Nat)
  /-- Replace a line. -/
  | updateLine (line : Nat) (content : Text)
  /-- Replace the node at a path. -/
  | update (how : Addressing) (path content : Text)
  /-- Remove the node at a path, and its line if nothing else is on it. -/
  | delete (how : Addressing) (path : Text)
  /-- Add a last member to the body of the node at a path; to the text if the path is blank. -/
  | append (parent content : Text)
  /-- Add a member before the first one with one of some types, or else as the last one. -/
  | insertBefore (parent content : Text) (types : List String)
deriving DecidableEq

namespace SyntaxTree

/-- The text with the node at a path replaced. -/
def updated (t : SyntaxTree) (how : Addressing) (path content : Text) : Except EditError Text := do
  let n ← t.target how path
  inText ((Splice.mk n.start n.stop content).apply t.source)

/-- The text without the node at a path. -/
def deleted (t : SyntaxTree) (how : Addressing) (path : Text) : Except EditError Text := do
  inText (t.textWithout (← t.target how path))

/-- The text with a last member added to a body. -/
def appendedTo (t : SyntaxTree) (body : Located) (content : Text) : Except EditError Text :=
  inText do (← t.appendSplice body content).apply t.source

/-- The text with a last member added to the body at a path. -/
def appended (t : SyntaxTree) (parent content : Text) : Except EditError Text :=
  if Text.isBlankText parent then .ok (appendToEnd t.source content)
  else do t.appendedTo (← t.targetBody parent) content

/-- The text with a member added before the first one with one of some types. -/
def insertedBefore (t : SyntaxTree) (parent content : Text) (types : List String) :
    Except EditError Text :=
  if Text.isBlankText parent then .ok (appendToEnd t.source content)
  else do
    let body ← t.targetBody parent
    match body.namedChildren.find? fun child => types.contains child.type with
    | some anchor => inText do (← t.insertSplice body anchor content).apply t.source
    | none => t.appendedTo body content

end SyntaxTree

/-- The text that an edit makes of the text of a tree. -/
def Edit.textAfter (t : SyntaxTree) : Edit → Except EditError Text
  | addLines after content => .ok (Text.addLines t.source after content)
  | removeLines start stop => .ok (Text.removeLines t.source start stop)
  | updateLine line content => .ok (Text.updateLine t.source line content)
  | update how path content => t.updated how path content
  | delete how path => t.deleted how path
  | append parent content => t.appended parent content
  | insertBefore parent content types => t.insertedBefore parent content types

end SyntaxEdit
