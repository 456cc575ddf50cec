/-
Constructs by semantic path, and the semantic paths of constructs.

* `ConstructIndex.resolve` — every construct that a path names, in document order;
* `ConstructIndex.listing` — every construct with its path, in document order;
* `SyntaxTree.findSemantic`, `SyntaxTree.semanticPaths` — the same for a tree.

A bare name is that of a class, a method or a property, or the label of a block.
-/
import SyntaxEdit.Construct.Index
import SyntaxEdit.Path.Semantic
import SyntaxEdit.Tree.Addressing

namespace SyntaxEdit

/-- A node that a semantic path names. -/
structure SemanticMatch where
  path : StructuralPath
  kind : Kind
  name : Text
  /-- The name of the smallest class around the node. -/
  container : Option Text
  /-- What the node is, in words. -/
  description : Text
  startPosition : Position
  stopPosition : Position
  start : Nat
  stop : Nat
  text : Text
deriving DecidableEq

namespace BlockConstruct

/-- The semantic path of a block. -/
def path (b : BlockConstruct) : SemanticPath :=
  .block b.callee b.label

/-- Whether a block is one of those that a callee and a label name; no label names all. -/
def fits (b : BlockConstruct) (callee : Text) (label : Option Text) : Bool :=
  b.callee = callee && (label.isNone || b.label = label)

end BlockConstruct

/-- What kind a method or property is reported as: a function in a class is a method, and what has
no kind of its own, or that of a body or block, has the kind of its family. A method of no class is
then a function. -/
def memberKind (own family : Kind) (inClass : Bool) : Kind :=
  match own with
  | .function => if inClass then .method else .function
  | .unknown | .body | .block =>
    if inClass = false ∧ family = .method then .function else family
  | other => other

/-- What kind a class is reported as. -/
def containerKind (own : Kind) : Kind :=
  if own = .interface then .interface else .classType

namespace ConstructIndex

/-- A node as a match. -/
def matchOf (index : ConstructIndex) (n : Located) (kind : Kind) (name : Text)
    (container : Option Text) (description : Text) : SemanticMatch where
  path := index.tree.pathOf n
  kind := kind
  name := name
  container := container
  description := description
  startPosition := index.tree.startOf n.node
  stopPosition := index.tree.stopOf n.node
  start := n.start
  stop := n.stop
  text := index.tree.textOf n.node

/-- A class as a match. -/
def classMatch (index : ConstructIndex) (c : NamedConstruct) : SemanticMatch :=
  let kind := containerKind (index.tree.kindOf c.node.node)
  index.matchOf c.node kind c.name none (c.name ++ ' ' :: kind.name.toList)

/-- A method or property as a match. -/
def memberMatch (index : ConstructIndex) (family : Kind) (m : NamedConstruct) : SemanticMatch :=
  let container := index.enclosingClass? m.node
  let kind := memberKind (index.tree.kindOf m.node.node) family container.isSome
  let own := m.name ++ ' ' :: kind.name.toList
  let description := match container with
    | some c =>
      own ++ " in ".toList ++ (containerKind (index.tree.kindOf c.node.node)).name.toList ++
        ' ' :: c.name
    | none => own
  index.matchOf m.node kind m.name (container.map NamedConstruct.name) description

/-- A block as a match. -/
def blockMatch (index : ConstructIndex) (b : BlockConstruct) : SemanticMatch :=
  index.matchOf b.node .block (b.label.getD b.callee)
    ((index.enclosingClass? b.node).map NamedConstruct.name)
    (b.path.render ++ " block".toList)

/-- The matches of a path, family by family. -/
def select (index : ConstructIndex) : SemanticPath → List SemanticMatch
  | .block callee label =>
    (index.blocks.filter fun b => b.fits callee label).map index.blockMatch
  | .name name =>
    (index.classes.filter fun c => c.name = name).map index.classMatch ++
    (index.methods.filter fun m => m.name = name).map (index.memberMatch .method) ++
    (index.properties.filter fun p => p.name = name).map (index.memberMatch .property) ++
    (index.blocks.filter fun b => b.label = some name).map index.blockMatch
  | .member containers member =>
    -- The name is compared first: where it differs, no class has to be looked for.
    let selected (m : NamedConstruct) : Bool :=
      m.name = member && index.isInside containers m.node
    (index.methods.filter selected).map (index.memberMatch .method) ++
    (index.properties.filter selected).map (index.memberMatch .property)

/-- The nodes that a path names, each once: by where they start, and at one start the longer ones
first. -/
def resolve (index : ConstructIndex) (path : SemanticPath) : List SemanticMatch :=
  (firstOfEach (fun m => (m.start, m.stop, m.path)) (index.select path)).mergeSort fun a b =>
    a.start < b.start || (a.start == b.start && b.stop ≤ a.stop)

/-- The path that a method or property is listed under. -/
def memberPath (index : ConstructIndex) (m : NamedConstruct) : SemanticPath :=
  match index.enclosingClass? m.node with
  | some c => .member [c.name] m.name
  | none => .name m.name

/-- Every construct with its path, by where the constructs start. Properties of no class are left
out. -/
def listing (index : ConstructIndex) : List (Located × SemanticPath) :=
  let properties := index.properties.filter fun p => (index.enclosingClass? p.node).isSome
  (index.classes.map (fun c => (c.node, SemanticPath.name c.name)) ++
    index.methods.map (fun m => (m.node, index.memberPath m)) ++
    properties.map (fun p => (p.node, index.memberPath p)) ++
    index.blocks.map (fun b => (b.node, b.path))).mergeSort
      fun a b => a.1.start ≤ b.1.start

end ConstructIndex

namespace SyntaxTree

/-- The nodes that a semantic path names as written; a text that is no such path names none. -/
def findSemantic (t : SyntaxTree) (path : Text) : List SemanticMatch :=
  match SemanticPath.parse? path with
  | some parsed => (ConstructIndex.build t).resolve parsed
  | none => []

/-- The semantic paths of all constructs, in document order. -/
def semanticPaths (t : SyntaxTree) : List Text :=
  (ConstructIndex.build t).listing.map fun entry => entry.2.render

end SyntaxTree

end SyntaxEdit
