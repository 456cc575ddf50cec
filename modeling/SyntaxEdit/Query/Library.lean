/-
Libraries that compile queries and run them.

How the text of a query is read and how its patterns are matched is no part of what is proved here:
a `QueryLibrary` is any function from grammars and query texts to compiled queries, and a compiled
query is known by its answers alone.

* `CompiledQuery` — the captures of a query, and its matches in a tree;
* `QueryLibrary` — what compiles the texts of queries;
* `QueryLibrary.FindsNodes` — what is relied on: captured nodes are nodes of the tree.
-/
import SyntaxEdit.Language.Grammar
import SyntaxEdit.Query.Error
import SyntaxEdit.Tree.Node

namespace SyntaxEdit

/-- A match of a query: the number of its pattern, and the captured nodes under the names of their
captures. -/
structure QueryMatch where
  pattern : Nat
  captures : List (String × Located)

/-- A compiled query, by what it answers. -/
structure CompiledQuery where
  /-- The names of its captures in order of appearance. -/
  captureNames : List String
  /-- Its matches in the tree below a root with a source text, in the order they are reported. -/
  matchesIn : Node → Text → List QueryMatch

/-- The query without patterns. -/
instance : EmptyCollection CompiledQuery := ⟨⟨[], fun _ _ => []⟩⟩

/-- A library that compiles the texts of queries under the names of a grammar. -/
abbrev QueryLibrary := Grammar → Text → Except QueryError CompiledQuery

/-- What is relied on of a library: a query that it compiles captures nodes of the tree that it is
run on, and no others. -/
structure QueryLibrary.FindsNodes (library : QueryLibrary) : Prop where
  at?_eq : ∀ {grammar : Grammar} {source : Text} {query : CompiledQuery},
    library grammar source = .ok query →
      ∀ {root : Node} {text : Text} {m : QueryMatch}, m ∈ query.matchesIn root text →
        ∀ capture ∈ m.captures, root.at? capture.2.address = some capture.2.node

end SyntaxEdit
