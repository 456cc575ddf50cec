/-
The bodies of constructs.

* `SyntaxTree.bodyOf?` — the body of a node, by the rules of its pack;
* `SyntaxTree.firstBody?` — the first node with the kind of a body below some nodes, found with an
  explicit stack;
* `Located.closingDelimiter?` — the token that closes a body.
-/
import SyntaxEdit.Tree.SyntaxTree

namespace SyntaxEdit

namespace SyntaxTree

/-- The first node with the kind of a body among the nodes on a stack and those below them, where
the children of a node go on top of the stack, the first one uppermost. -/
def firstBody? (t : SyntaxTree) : List Located → Option Located
  | [] => none
  | n :: stack =>
    -- The rest of the stack waits below the children, so it comes after all that is below `n`.
    if t.kindOf n.node = .body then some n else t.firstBody? (n.children ++ stack)
termination_by stack => stackSize stack
decreasing_by
  have := stackSize_children n
  rw [stackSize_append, stackSize]
  omega

/-- The body of the last argument of a call that has one. -/
def callbackBody? (t : SyntaxTree) (call : Located) : Option Located := do
  let arguments ← call.childInField? "arguments"
  arguments.namedChildren.reverse.findSome? fun argument =>
    (argument.childInField? "body").filter fun body => t.kindOf body.node = .body

/-- The body that one rule finds. -/
def bodyByRule? (t : SyntaxTree) (n : Located) : BodyRule → Option Located
  | .itself => some n
  | .child nodeType => n.namedChildren.find? fun child => child.type = nodeType
  | .field name => n.childInField? name
  | .functionBody => t.firstBody? n.children
  | .callbackBody => t.callbackBody? n

/-- The body of a node: the first that one of its rules finds. A node without rules can only be a
body itself. -/
def bodyOf? (t : SyntaxTree) (n : Located) : Option Located :=
  match t.pack.rulesOf n.type with
  | [] => if t.kindOf n.node = .body then some n else none
  | rules => rules.findSome? (t.bodyByRule? n)

end SyntaxTree

/-- The tokens that close a body. -/
def closingDelimiters : List String := ["\x7d", "]", ")", "end"]

/-- The token that closes a body: its last child, if that is one of the closing tokens. A body
without one is delimited by its indentation. -/
def Located.closingDelimiter? (body : Located) : Option Located :=
  body.children.getLast?.filter fun last =>
    !last.node.isNamed && closingDelimiters.contains last.type

end SyntaxEdit
