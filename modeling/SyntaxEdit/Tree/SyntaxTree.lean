/-
Syntax trees of a source text in a language.

How a text is parsed is no part of this library: a `Parser` is any function from grammars and texts
to trees. Nor is how queries are run: a tree comes with the library that runs them.

* `SyntaxTree.parse` — the tree of a text under a language pack;
* `SyntaxTree.textOf`, `SyntaxTree.kindOf` — the source text and the kind of a node;
* `SyntaxTree.errorNodes` — the nodes that mark syntax errors, in document order;
* `SyntaxTree.nodesOfType`, `SyntaxTree.nodesOfKind` — nodes by raw type and by kind.
-/
import SyntaxEdit.Language.Pack
import SyntaxEdit.Query.Match
import SyntaxEdit.Text.LineBreak
import SyntaxEdit.Tree.Walk

namespace SyntaxEdit

/-- What a parser makes of a text: a tree, and whether it met anything that it could not parse. -/
structure Parsed where
  root : Node
  broken : Bool

/-- A parser for every grammar. -/
abbrev Parser := Grammar → Text → Parsed

/-- A library of grammars, which may give no tree of a text. -/
abbrev GrammarLibrary := Grammar → Text → Option Parsed

/-- What is relied on of such a library: it does give a tree. It gives none where it was set to no
grammar, or was told to give up early, and neither ever happens here. -/
structure GrammarLibrary.GivesTrees (library : GrammarLibrary) : Prop where
  isSome : ∀ grammar t, (library grammar t).isSome = true

/-- The parser that a library is if it gives a tree of every text. -/
def GrammarLibrary.parser (library : GrammarLibrary) (h : library.GivesTrees) : Parser :=
  fun grammar t => (library grammar t).get (h.isSome grammar t)

/-- The tree of a source text in the language of a pack. -/
structure SyntaxTree where
  root : Node
  broken : Bool
  source : Text
  pack : LanguagePack
  /-- The library that the queries of the pack are run by. -/
  queries : QueryLibrary := QueryLibrary.basic

/-- A node that marks a syntax error, with its place in the source. -/
structure ErrorNode where
  start : Nat
  stop : Nat
  startPosition : Position
  stopPosition : Position
  missing : Bool
deriving DecidableEq

namespace SyntaxTree

/-- The tree that a parser makes of a text under a pack. -/
def parse (parser : Parser) (pack : LanguagePack) (source : Text)
    (queries : QueryLibrary := QueryLibrary.basic) : SyntaxTree :=
  let parsed := parser pack.grammar source
  ⟨parsed.root, parsed.broken, source, pack, queries⟩

/-- The root with its address. -/
def rootNode (t : SyntaxTree) : Located := ⟨[], t.root⟩

/-- Every node in document order, as a walk from the root comes to them. -/
def nodes (t : SyntaxTree) : List Located :=
  (TreeCursor.start t.rootNode).walk

theorem nodes_eq_preorder (t : SyntaxTree) : t.nodes = t.root.preorder := by
  rw [nodes, TreeCursor.walk_start, Node.preorder_eq]
  rfl

/-- What is asked of every node is decided along the recursion of the tree. -/
instance (t : SyntaxTree) (p : Located → Prop) [DecidablePred p] :
    Decidable (∀ n ∈ t.nodes, p n) :=
  decidable_of_iff (∀ n ∈ t.root.preorder, p n) (by rw [nodes_eq_preorder])

/-- The source text of a node. -/
def textOf (t : SyntaxTree) (n : Node) : Text :=
  Text.slice t.source n.start n.stop

/-- The kind of a node in the language of the tree. -/
def kindOf (t : SyntaxTree) (n : Node) : Kind :=
  t.pack.kindOf n.type

/-- The row and column at which a node starts. -/
def startOf (t : SyntaxTree) (n : Node) : Position :=
  Text.positionAt t.source n.start

/-- The row and column at which a node ends. -/
def stopOf (t : SyntaxTree) (n : Node) : Position :=
  Text.positionAt t.source n.stop

/-- The nodes that mark syntax errors, in document order. -/
def errorNodes (t : SyntaxTree) : List ErrorNode :=
  (t.nodes.filter fun n => n.node.isError).map fun n =>
    ⟨n.start, n.stop, t.startOf n.node, t.stopOf n.node, n.node.label.missing⟩

/-- The nodes of a raw type in document order. -/
def nodesOfType (t : SyntaxTree) (rawType : String) : List Located :=
  t.nodes.filter fun n => n.type = rawType

/-- The named nodes of a kind, by raw type in ascending order, and in document order for each raw
type. -/
def nodesOfKind (t : SyntaxTree) (kind : Kind) : List Located :=
  (t.pack.rawTypesOf kind).flatMap fun rawType =>
    (t.nodesOfType rawType).filter fun n => n.node.isNamed

/-- The parent of a node. The root has none. -/
def parent? (t : SyntaxTree) (n : Located) : Option Located :=
  if n.address = [] then none
  else (t.root.at? n.address.dropLast).map fun parent => ⟨n.address.dropLast, parent⟩

/-- The node that follows a node among the children of its parent. -/
def nextSibling? (t : SyntaxTree) (n : Located) : Option Located := do
  let position ← n.address.getLast?
  let parent ← t.parent? n
  parent.children[position + 1]?

end SyntaxTree

end SyntaxEdit
