/-
Compiled queries, and the constructs that they find in a tree.

* `QueryEngine.compile` — an engine for a query text. If the text as a whole does not compile, its
  top-level patterns are tried one by one, and those that compile are kept. This is done in the same
  way for every compiler (`QueryEngine.compileWith`);
* `QueryEngine.findAll` — the constructs that the patterns match in a tree.

The construct of a match is the first captured node that is neither `@name` nor `@callee`, or else
the parent of `@name`, or else the first captured node.
-/
import SyntaxEdit.Query.Split
import SyntaxEdit.Tree.SyntaxTree

namespace SyntaxEdit

/-- Why there is no engine: no pattern of the text compiles. The error is that of the whole text. -/
structure InvalidQuery where
  grammar : Grammar
  error : QueryError
deriving DecidableEq

/-- The wording of a query text that does not compile. -/
def InvalidQuery.message (e : InvalidQuery) : Text :=
  "invalid tree-sitter query for ".toList ++ e.grammar.name.toList ++ ": ".toList ++ e.error.message

/-- What a compiler made of the patterns of a text, and the number of patterns that were dropped. -/
structure EngineOf (κ : Type) where
  grammar : Grammar
  query : κ
  dropped : Nat

/-- A compiled query with the number of patterns that were dropped from its text. -/
abbrev QueryEngine := EngineOf CompiledQuery

/-- A construct that a pattern matches, with the captured nodes; for a name that several nodes
have, the first counts. -/
structure ConstructMatch where
  pattern : Nat
  node : Located
  captures : List (String × Located)

namespace ConstructMatch

/-- The node with a capture. -/
def capture? (m : ConstructMatch) (name : String) : Option Located :=
  (m.captures.find? fun entry => entry.1 = name).map Prod.snd

/-- The node that names the construct. -/
def nameNode? (m : ConstructMatch) : Option Located := m.capture? "name"

/-- The node of the function that a block calls. -/
def calleeNode? (m : ConstructMatch) : Option Located := m.capture? "callee"

end ConstructMatch

namespace QueryEngine

variable {κ : Type}

/-- Whether a text compiles. -/
def compiles (compiler : Text → Except QueryError κ) (source : Text) : Bool :=
  match compiler source with
  | .ok _ => true
  | .error _ => false

/-- An engine for a text by a given compiler. A blank text gives an engine that never matches. -/
def compileWith [EmptyCollection κ] (compiler : Text → Except QueryError κ) (grammar : Grammar)
    (source : Text) : Except InvalidQuery (EngineOf κ) :=
  if Text.isBlankText source then .ok ⟨grammar, ∅, 0⟩
  else
    match compiler source with
    | .ok query => .ok ⟨grammar, query, 0⟩
    | .error whole =>
      let patterns := splitPatterns source
      let kept := patterns.filter (compiles compiler)
      -- Without any pattern left, the problem of the whole text tells most.
      if kept = [] then .error ⟨grammar, whole⟩
      else
        match compiler (Text.joinWith ['\n', '\n'] kept) with
        | .ok query => .ok ⟨grammar, query, patterns.length - kept.length⟩
        | .error e => .error ⟨grammar, e⟩

/-- An engine for a query text under a grammar. -/
def compile (grammar : Grammar) (source : Text) (queries : QueryLibrary := QueryLibrary.basic) :
    Except InvalidQuery QueryEngine :=
  compileWith (queries grammar) grammar source

/-- The node of the construct that a match is about. -/
def constructOf? (t : SyntaxTree) (captures : List (String × Located)) : Option Located :=
  ((captures.find? fun entry => entry.1 ≠ "name" ∧ entry.1 ≠ "callee").map Prod.snd) <|>
  ((captures.find? fun entry => entry.1 = "name").bind fun entry => t.parent? entry.2) <|>
  (captures.head?.map Prod.snd)

/-- The constructs that the patterns of an engine match in a tree. -/
def findAll (engine : QueryEngine) (t : SyntaxTree) : List ConstructMatch :=
  (engine.query.matchesIn t.root t.source).filterMap fun m =>
    (constructOf? t m.captures).map fun node => ⟨m.pattern, node, m.captures⟩

end QueryEngine

end SyntaxEdit
