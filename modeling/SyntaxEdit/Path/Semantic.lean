/-
Semantic paths: a construct named the way a reader would name it.

* `SemanticPath` — a block `callee("label")`, a bare name, or `Outer.Inner.member`;
* `SemanticPath.render` — the written form;
* `SemanticPath.parse?` — the path a text denotes; none for a blank text and for a dotted path with
  an empty part.

A text has the block form if, white space around it aside, it is a callee, white space, an opening
bracket, an argument on one line, and a closing bracket. A callee starts with an ASCII letter, `_`
or `$`, and goes on with word characters, `$` and `.`.
-/
import SyntaxEdit.Path.Quoted
import SyntaxEdit.Text.Blank
import SyntaxEdit.Text.Word

namespace SyntaxEdit

/-- A human-readable path. -/
inductive SemanticPath where
  /-- A call with a callback: `callee("label")`, or `callee()` for any label. -/
  | block (callee : Text) (label : Option Text)
  /-- A bare name. -/
  | name (name : Text)
  /-- A member with the names of the classes around it, outermost first. -/
  | member (containers : List Text) (member : Text)
deriving DecidableEq

namespace SemanticPath

/-- The written form of a path. -/
def render : SemanticPath → Text
  | .block callee (some label) => callee ++ '(' :: '"' :: (label ++ ['"', ')'])
  | .block callee none => callee ++ ['(', ')']
  | .name own => own
  | .member containers own => Text.joinWith ['.'] containers ++ '.' :: own

/-- The characters that can start a callee. -/
def startsCallee (c : Char) : Bool :=
  c.isAlpha || c = '_' || c = '$'

/-- The characters that can stand in a callee after the first. -/
def inCallee (c : Char) : Bool :=
  isWord c || c = '$' || c = '.'

/-- The label that the argument of a block denotes; none if it is blank. -/
def readLabel (argument : Text) : Option Text :=
  let trimmed := Text.trim argument
  if trimmed = [] then none else some ((unquote? trimmed).getD trimmed)

/-- The callee and the argument of a trimmed text in block form. -/
def splitBlock? : Text → Option (Text × Text)
  | [] => none
  | first :: rest =>
    if startsCallee first then
      match (rest.dropWhile inCallee).dropWhile isBlank with
      | '(' :: inner =>
        if inner.getLast? = some ')' ∧ '\n' ∉ inner.dropLast then
          some (first :: rest.takeWhile inCallee, inner.dropLast)
        else none
      | _ => none
    else none

/-- The path of a text that is not of the block form: the trimmed parts between its dots. -/
def parseDotted? (t : Text) : Option SemanticPath :=
  let parts := (Text.splitOn '.' t).map Text.trim
  if [] ∈ parts then none
  else
    match parts.getLast?, parts.dropLast with
    | none, _ => none
    | some last, [] => some (.name last)
    | some last, containers => some (.member containers last)

/-- The path that a text denotes. -/
def parse? (t : Text) : Option SemanticPath :=
  let trimmed := Text.trim t
  if trimmed = [] then none
  else
    match splitBlock? trimmed with
    | some (callee, argument) => some (.block callee (readLabel argument))
    | none => parseDotted? trimmed

end SemanticPath

end SyntaxEdit
