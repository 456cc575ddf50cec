/-
The constructs of a tree: classes, methods, properties and blocks, as the queries of its pack find
them.

* `ConstructIndex.build` — the index of a tree;
* `ConstructIndex.enclosingClass?` — the smallest class around a node;
* `ConstructIndex.isInside` — whether a node stands in classes of given names, one in the other.

A query that is blank, or that does not compile, finds nothing.
-/
import SyntaxEdit.Construct.DocumentOrder
import SyntaxEdit.Path.Quoted
import SyntaxEdit.Query.Engine

namespace SyntaxEdit

/-- A class, a method or a property, with its name. -/
structure NamedConstruct where
  node : Located
  name : Text

/-- A call with a callback, with the function it calls and the string it is labelled by. -/
structure BlockConstruct where
  node : Located
  callee : Text
  label : Option Text

/-- All constructs of a tree, each family without repeated nodes and in document order. -/
structure ConstructIndex where
  tree : SyntaxTree
  classes : List NamedConstruct
  methods : List NamedConstruct
  properties : List NamedConstruct
  blocks : List BlockConstruct

/-! ### Reading the constructs off the matches of queries -/

/-- The constructs that the query of a category finds. -/
def SyntaxTree.constructs (t : SyntaxTree) (category : QueryCategory) : List ConstructMatch :=
  let source := t.pack.queries.get category
  if Text.isBlankText source then []
  else
    match QueryEngine.compile t.pack.grammar source t.queries with
    | .ok engine => engine.findAll t
    | .error _ => []

/-- The text of a string literal without its delimiters: what stands between equal quotes, or else
the children that hold the contents, or else all of it. -/
def SyntaxTree.labelOf (t : SyntaxTree) (literal : Located) : Text :=
  let text := t.textOf literal.node
  match unquote? text with
  | some inner => inner
  | none =>
    match t.pack.stringUnwrap with
    | none => text
    | some contentType =>
      let contents := literal.namedChildren.filter fun child => child.type = contentType
      if contents.isEmpty then text else contents.flatMap fun child => t.textOf child.node

/-- A match as a named construct. A match without a name is none. -/
def ConstructMatch.named? (t : SyntaxTree) (m : ConstructMatch) : Option NamedConstruct :=
  m.nameNode?.map fun name => ⟨m.node, t.textOf name.node⟩

/-- A match as a block. A match without a callee is none. -/
def ConstructMatch.block? (t : SyntaxTree) (m : ConstructMatch) : Option BlockConstruct :=
  m.calleeNode?.map fun callee => ⟨m.node, t.textOf callee.node, m.nameNode?.map t.labelOf⟩

namespace ConstructIndex

/-- The named constructs of a category. -/
def namedIn (t : SyntaxTree) (category : QueryCategory) : List NamedConstruct :=
  inDocumentOrder NamedConstruct.node
    ((t.constructs category).filterMap (ConstructMatch.named? t))

/-- The index of a tree. -/
def build (t : SyntaxTree) : ConstructIndex where
  tree := t
  classes := namedIn t .classes
  methods := namedIn t .methods
  properties := namedIn t .properties
  blocks := inDocumentOrder BlockConstruct.node
    ((t.constructs .blocks).filterMap (ConstructMatch.block? t))

end ConstructIndex

/-! ### Classes around a node -/

/-- Whether a node is another one than `inner` and its range covers that of `inner`. -/
def Located.encloses (outer inner : Located) : Bool :=
  outer.address != inner.address && outer.start ≤ inner.start && inner.stop ≤ outer.stop

/-- The number of bytes of a construct. -/
def NamedConstruct.byteLength (c : NamedConstruct) : Nat :=
  c.node.stop - c.node.start

/-- The first of the constructs with the fewest bytes. -/
def shortest? : List NamedConstruct → Option NamedConstruct
  | [] => none
  | c :: rest =>
    match shortest? rest with
    | some best => if best.byteLength < c.byteLength then some best else some c
    | none => some c

namespace ConstructIndex

/-- The smallest class around a node. -/
def enclosingClass? (index : ConstructIndex) (n : Located) : Option NamedConstruct :=
  shortest? (index.classes.filter fun c => c.node.encloses n)

/-- The smallest class with a name around a node. -/
def enclosingClassNamed? (index : ConstructIndex) (name : Text) (n : Located) :
    Option NamedConstruct :=
  shortest? (index.classes.filter fun c => c.name = name && c.node.encloses n)

/-- Whether a node stands in classes of the given names, the innermost first, each in the next. -/
def isInsideInner (index : ConstructIndex) : List Text → Located → Bool
  | [], _ => true
  | name :: outer, n =>
    match index.enclosingClassNamed? name n with
    | some c => index.isInsideInner outer c.node
    | none => false

/-- Whether a node stands in classes of the given names, the outermost first. -/
def isInside (index : ConstructIndex) (containers : List Text) (n : Located) : Bool :=
  index.isInsideInner containers.reverse n

end ConstructIndex

end SyntaxEdit
