/-
The node that an edit is about.

* `Addressing` — the ways in which a path can be meant;
* `SyntaxTree.target` — the node that a path names, or why there is not just one;
* `SyntaxTree.targetBody` — the body of that node.
-/
import SyntaxEdit.Construct.Body
import SyntaxEdit.Construct.Suggestion
import SyntaxEdit.Edit.Error

namespace SyntaxEdit

/-- How a path is meant. -/
inductive Addressing where
  /-- As a structural path. -/
  | structural
  /-- As a semantic path. -/
  | semantic
  /-- As a semantic path, or else as a structural one. -/
  | either
deriving DecidableEq

namespace SyntaxTree

/-- The failure for a path that names nothing, with similar paths. -/
def notFound (t : SyntaxTree) (path : Text) : EditError :=
  .nodeNotFound path (t.suggest path)

/-- The only match of a semantic path, if it has any. -/
def onlyMatch? (t : SyntaxTree) (path : Text) : Except EditError (Option SemanticMatch) :=
  match t.findSemantic path with
  | [] => .ok none
  | [found] => .ok (some found)
  | several => .error (.ambiguousPath path (several.map SemanticMatch.description))

/-- The node of a structural path. -/
def structuralTarget (t : SyntaxTree) (path : Text) : Except EditError Located :=
  match t.resolveText? path with
  | some n => .ok n
  | none => .error (.nodeNotFound path [])

/-- The node that a path names. -/
def target (t : SyntaxTree) (how : Addressing) (path : Text) : Except EditError Located :=
  match how with
  | .structural => t.structuralTarget path
  | .semantic => do
    match ← t.onlyMatch? path with
    | some found => t.structuralTarget found.path.render
    | none => .error (t.notFound path)
  | .either => do
    let named ← t.onlyMatch? path
    let resolved := match named with
      | some found => t.resolve? found.path
      | none => t.resolveText? path
    match resolved with
    | some n => .ok n
    | none => .error (t.notFound path)

/-- The body of the node that a semantic or structural path names. -/
def targetBody (t : SyntaxTree) (path : Text) : Except EditError Located := do
  match t.bodyOf? (← t.target .either path) with
  | some body => .ok body
  | none => .error (.bodyNotFound path)

end SyntaxTree

end SyntaxEdit
