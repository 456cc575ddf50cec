/-
Patterns for nodes of a syntax tree.

A pattern tests a node and may ask for certain nodes among its children, in order but not
necessarily next to each other. It names nodes by captures.

* `Pattern`, `Steps` — a pattern for one node, and the patterns for its children;
* `Predicate` — a condition on the text of captured nodes;
* `Query` — top-level patterns with their predicates.

These are the patterns that `Query.compile` reads, which is a part of the query language.
-/
import SyntaxEdit.Query.Regex

namespace SyntaxEdit

/-- What a pattern asks of the node itself. -/
inductive NodeTest where
  /-- A named node of a type. -/
  | ofType (type : String)
  /-- Any named node. -/
  | anyNamed
  /-- Any node. -/
  | any
  /-- The node of a token. -/
  | token (text : String)
deriving DecidableEq

mutual

/-- A pattern for one node. -/
inductive Pattern where
  /-- The node passes a test, and its children match. -/
  | node (test : NodeTest) (steps : Steps)
  /-- One of several patterns matches. -/
  | oneOf (alternatives : List Pattern)
  /-- The parent holds the node under a field. -/
  | inField (field : String) (pattern : Pattern)
  /-- The node gets a name. -/
  | captured (pattern : Pattern) (name : String)

/-- The patterns for some of the children of a node, in order. -/
inductive Steps where
  /-- No more children are asked for; if `closed`, no named child may be left. -/
  | done (closed : Bool)
  /-- A child that matches a pattern; if `anchored`, no named child may be passed over before it. -/
  | next (anchored : Bool) (pattern : Pattern) (rest : Steps)

end

/-- A condition that has to hold for the text of every node with some capture. -/
inductive Predicate where
  /-- The text is one of several, or is none of them. -/
  | isOneOf (capture : String) (texts : List Text) (negated : Bool)
  /-- An expression matches somewhere in the text, or nowhere. -/
  | contains (capture : String) (expression : Regex) (negated : Bool)

/-- The capture that a predicate is about. -/
def Predicate.capture : Predicate → String
  | isOneOf capture _ _ => capture
  | contains capture _ _ => capture

/-- Whether a predicate holds for a text. -/
def Predicate.holds : Predicate → Text → Bool
  | isOneOf _ texts negated, t => texts.contains t != negated
  | contains _ expression negated, t => expression.occursIn t != negated

/-- A top-level pattern of a query. -/
structure TopPattern where
  pattern : Pattern
  predicates : List Predicate

/-- The top-level patterns of a query, and the names of its captures in order of appearance. -/
structure Query where
  patterns : List TopPattern
  captureNames : List String

/-- The query without patterns. -/
def Query.empty : Query := ⟨[], []⟩

instance : EmptyCollection Query := ⟨.empty⟩

end SyntaxEdit
