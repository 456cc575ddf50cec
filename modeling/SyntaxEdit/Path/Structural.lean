/-
Structural paths: a node named by the types and positions on the way to it from the root.

A path is written `type[index]/type[index]/…`. Types may contain `/`, `[` and `]` themselves, so a
written path is cut at the occurrences of `]/`, and the index of a segment stands after its last
`[`.

* `StructuralPath.render` — the written form;
* `StructuralPath.parse` — the path a text denotes, white space around it aside.
-/
import SyntaxEdit.Text.Blank
import SyntaxEdit.Text.Decimal

namespace SyntaxEdit

/-- One step of a path: the type of a node and its position among the children of its parent. -/
structure PathSegment where
  nodeType : String
  index : Nat
deriving DecidableEq

/-- The written form of a segment. -/
def PathSegment.render (s : PathSegment) : Text :=
  s.nodeType.toList ++ '[' :: (Decimal.render s.index ++ [']'])

/-- The segments from the root, which has index 0, down to a node. -/
structure StructuralPath where
  segments : List PathSegment
deriving DecidableEq

/-- A text that is no structural path. -/
structure PathParseError where
  input : Text
deriving DecidableEq

/-- The wording of a refused path. -/
def PathParseError.message (e : PathParseError) : Text :=
  "not a structural path: ".toList ++ e.input

namespace StructuralPath

/-- The type of the node that a path names. -/
def leafType? (p : StructuralPath) : Option String :=
  p.segments.getLast?.map PathSegment.nodeType

/-- The written form of a path. -/
def render (p : StructuralPath) : Text :=
  Text.joinWith ['/'] (p.segments.map PathSegment.render)

/-- The pieces of a text between the occurrences of `]/`, taken from the left. -/
def splitSegments : Text → List Text
  | [] => [[]]
  | ']' :: '/' :: rest => [] :: splitSegments rest
  | c :: rest =>
    match splitSegments rest with
    | [] => [[c]]
    | piece :: pieces => (c :: piece) :: pieces

/-- A segment without its closing bracket: a type, the last opening bracket, an index. -/
def readSegment? (piece : Text) : Option PathSegment :=
  match piece.reverse.dropWhile (· ≠ '[') with
  | [] => none
  | _ :: typeReversed => do
    let index ← Decimal.readIndex? (Text.takeEndWhile (· ≠ '[') piece)
    if typeReversed = [] then none else some ⟨String.ofList typeReversed.reverse, index⟩

/-- The path that a text denotes. -/
def parse? (t : Text) : Option StructuralPath := do
  let trimmed := Text.trim t
  if trimmed.getLast? ≠ some ']' then none
  else return ⟨← (splitSegments trimmed.dropLast).mapM readSegment?⟩

/-- The path that a text denotes, or the text that is none. -/
def parse (t : Text) : Except PathParseError StructuralPath :=
  match parse? t with
  | some p => .ok p
  | none => .error ⟨t⟩

end StructuralPath

end SyntaxEdit
