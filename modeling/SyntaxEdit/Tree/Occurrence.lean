/-
Where a text occurs in a source, and which nodes cover the occurrences.

* `occurrences` — the byte columns at which a text occurs in a line, leftmost first and without
  overlaps;
* `Node.smallestCovering` — the way down to the smallest node around a byte range;
* `SyntaxTree.locate` — every occurrence in the source, line by line, with its smallest node.
-/
import SyntaxEdit.Tree.Addressing

namespace SyntaxEdit

/-- The byte columns at which `part` occurs in a line, from byte `column` on. The next `skip`
characters belong to the occurrence found last. -/
def occurrencesFrom (part : Text) (column skip : Nat) : Text → List Nat
  | [] => []
  | c :: rest =>
    if skip = 0 ∧ part.isPrefixOf (c :: rest) then
      column :: occurrencesFrom part (column + c.utf8Size) (part.length - 1) rest
    else occurrencesFrom part (column + c.utf8Size) (skip - 1) rest

/-- The byte columns at which a text that is not empty occurs in a line. -/
def occurrences (part line : Text) : List Nat :=
  occurrencesFrom part 0 0 line

mutual

/-- The address of the smallest node around a byte range: go to the first child that covers the
range, as long as there is one. -/
def Node.smallestCovering (start stop : Nat) : Node → Address
  | .mk _ children => coveringFrom start stop 0 children

/-- The same among some siblings, the first of which has position `i`. -/
def coveringFrom (start stop i : Nat) : List Node → Address
  | [] => []
  | .mk label children :: rest =>
    if label.start ≤ start ∧ stop ≤ label.stop then
      i :: Node.smallestCovering start stop (.mk label children)
    else coveringFrom start stop (i + 1) rest

end

/-- An occurrence of a text, with the path and the text of the smallest node around it. -/
structure Occurrence where
  path : StructuralPath
  row : Nat
  column : Nat
  text : Text
deriving DecidableEq

namespace SyntaxTree

/-- The occurrences of a text in the lines of a source, the first of which has number `row` and
starts at byte `offset`. -/
def locateFrom (t : SyntaxTree) (part : Text) (row offset : Nat) : List Text → List Occurrence
  | [] => []
  | line :: rest =>
    (occurrences part line).map (fun column =>
      let start := offset + column
      let address := t.root.smallestCovering start (start + Text.byteLength part)
      let text := match t.root.at? address with
        | some n => t.textOf n
        | none => []
      ⟨t.pathTo address, row, column, text⟩) ++
    locateFrom t part (row + 1) (offset + Text.byteLength line + 1) rest

/-- Every occurrence of a text, line by line and left to right. The empty text has none. -/
def locate (t : SyntaxTree) (part : Text) : List Occurrence :=
  if part = [] then [] else t.locateFrom part 0 0 (Text.splitOn '\n' t.source)

end SyntaxTree

end SyntaxEdit
