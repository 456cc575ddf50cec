/-
Structural paths of the nodes of a tree.

* `SyntaxTree.pathTo` — the path of the node at an address;
* `SyntaxTree.resolve?` — the node that a path names: every type and position has to fit;
* `SyntaxTree.resolveText?` — the same for a path as written.
-/
import SyntaxEdit.Path.Structural
import SyntaxEdit.Tree.SyntaxTree

namespace SyntaxEdit

/-- The segments for the steps of an address below a node. -/
def segmentsBelow : Node → Address → List PathSegment
  | _, [] => []
  | n, i :: rest =>
    match n.children[i]? with
    | some child => ⟨child.type, i⟩ :: segmentsBelow child rest
    | none => []

/-- The address below a node that segments lead to, with the node there. -/
def followSegments? : Node → List PathSegment → Option Located
  | n, [] => some ⟨[], n⟩
  | n, segment :: rest =>
    match n.children[segment.index]? with
    | some child =>
      if child.type = segment.nodeType then
        (followSegments? child rest).map (Located.under segment.index)
      else none
    | none => none

namespace SyntaxTree

/-- The structural path of the node at an address. -/
def pathTo (t : SyntaxTree) (address : Address) : StructuralPath :=
  ⟨⟨t.root.type, 0⟩ :: segmentsBelow t.root address⟩

/-- The structural path of a node. -/
def pathOf (t : SyntaxTree) (n : Located) : StructuralPath :=
  t.pathTo n.address

/-- The node that a path names. -/
def resolve? (t : SyntaxTree) (path : StructuralPath) : Option Located :=
  match path.segments with
  | [] => none
  | first :: rest =>
    if first.nodeType = t.root.type ∧ first.index = 0 then followSegments? t.root rest else none

/-- The node that a path names as written. -/
def resolveText? (t : SyntaxTree) (path : Text) : Option Located := do
  t.resolve? (← StructuralPath.parse? path)

end SyntaxTree

end SyntaxEdit
