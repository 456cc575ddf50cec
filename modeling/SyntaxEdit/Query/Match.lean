/-
How patterns match the nodes of a tree.

* `Pattern.matchesAt` — every way in which a pattern matches at a node;
* `Query.matchesIn` — the matches of a query in a tree, in the order in which they are completed;
* `QueryLibrary.basic` — the library that reads queries as `Query.compile` does, and runs them so.

A match is completed at the node for the last step of its pattern. Matches are ordered by that node,
then by the node of the whole pattern, then by the number of the pattern. Ways to match one pattern
at one node with the same captures count once.
-/
import SyntaxEdit.Query.Compile
import SyntaxEdit.Query.Library

namespace SyntaxEdit

/-- One way in which a pattern matches: the captured nodes, those of a node before those below it,
and the node for the last step. -/
structure PatternMatch where
  captures : List (String × Located)
  last : Located

/-- Whether a node passes the test of a pattern. -/
def NodeTest.passes (test : NodeTest) (n : Node) : Bool :=
  match test with
  | .ofType type => (n.isNamed || n.label.error) && n.type = type
  | .anyNamed => n.isNamed
  | .any => true
  | .token text => !n.isNamed && n.type = text

/-- The siblings that a step can take, each with the siblings after it. An anchored step passes over
no named node. -/
def reachable (anchored : Bool) : List Located → List (Located × List Located)
  | [] => []
  | sibling :: rest =>
    (sibling, rest) ::
      if anchored && sibling.node.isNamed then [] else reachable anchored rest

mutual

/-- Every way in which a pattern matches at a node. -/
def Pattern.matchesAt : Pattern → Located → List PatternMatch
  | .node test steps, n =>
    if test.passes n.node then steps.matchesAmong n n.children else []
  | .oneOf alternatives, n => anyMatchesAt alternatives n
  | .inField field pattern, n =>
    if n.node.label.field = some field then pattern.matchesAt n else []
  | .captured pattern name, n =>
    (pattern.matchesAt n).map fun m => { m with captures := (name, n) :: m.captures }

/-- Every way in which one of several patterns matches at a node. -/
def anyMatchesAt : List Pattern → Located → List PatternMatch
  | [], _ => []
  | pattern :: rest, n => pattern.matchesAt n ++ anyMatchesAt rest n

/-- Every way in which steps match among siblings; `last` is the node of the step before. -/
def Steps.matchesAmong : Steps → Located → List Located → List PatternMatch
  | .done closed, last, siblings =>
    if closed && siblings.any (fun s => s.node.isNamed) then [] else [⟨[], last⟩]
  | .next anchored pattern rest, _, siblings =>
    (reachable anchored siblings).flatMap fun (sibling, after) =>
      (pattern.matchesAt sibling).flatMap fun m =>
        (rest.matchesAmong m.last after).map fun r => ⟨m.captures ++ r.captures, r.last⟩

end

/-- A match before it is reported: also the node that the pattern matches at, and the node that
completes the match. -/
structure CompletedMatch extends QueryMatch where
  root : Located
  last : Located

/-- Whether an address comes before another, or is the same, in document order: parents come before
children and siblings in order. -/
def Address.precedes : Address → Address → Bool
  | [], _ => true
  | _ :: _, [] => false
  | i :: a, j :: b => i < j || (i == j && Address.precedes a b)

namespace CompletedMatch

/-- The captured nodes by their addresses. -/
def captureAddresses (m : CompletedMatch) : List (String × Address) :=
  m.captures.map fun (name, n) => (name, n.address)

/-- Whether a match is reported before another, or could be. -/
def precedes (m n : CompletedMatch) : Bool :=
  if m.last.address ≠ n.last.address then Address.precedes m.last.address n.last.address
  else if m.root.address ≠ n.root.address then Address.precedes m.root.address n.root.address
  else m.pattern ≤ n.pattern

/-- Whether two matches are of one pattern at one node, with the same captures. -/
def sameAs (m n : CompletedMatch) : Bool :=
  m.pattern == n.pattern && m.root.address == n.root.address &&
    m.captureAddresses == n.captureAddresses

end CompletedMatch

/-- Whether the predicates of a pattern hold for the captures of a match, in a source text. -/
def predicatesHold (source : Text) (predicates : List Predicate)
    (captures : List (String × Located)) : Bool :=
  predicates.all fun p =>
    captures.all fun (name, n) => name ≠ p.capture || p.holds (Text.slice source n.start n.stop)

/-- The matches of a top-level pattern, with number `number`, at any of some nodes. -/
def TopPattern.matchesIn (source : Text) (p : TopPattern) (number : Nat) (nodes : List Located) :
    List CompletedMatch :=
  nodes.flatMap fun n =>
    ((p.pattern.matchesAt n).filter fun m => predicatesHold source p.predicates m.captures).map
      fun m => ⟨⟨number, m.captures⟩, n, m.last⟩

/-- The matches of a query in the tree below a root, in the order in which they are completed. -/
def Query.matchesIn (query : Query) (root : Node) (source : Text) : List QueryMatch :=
  -- Of equal matches the one that is completed first stays.
  let nodes := root.preorder
  let found := query.patterns.zipIdx.flatMap fun (p, number) => p.matchesIn source number nodes
  (List.eraseDupsBy CompletedMatch.sameAs (found.mergeSort CompletedMatch.precedes)).map
    CompletedMatch.toQueryMatch

/-- A query as what it answers. -/
def Query.compiled (query : Query) : CompiledQuery :=
  ⟨query.captureNames, query.matchesIn⟩

/-- The library for the part of the query language that `Query.compile` reads. -/
def QueryLibrary.basic : QueryLibrary := fun grammar source =>
  (Query.compile grammar source).map Query.compiled

end SyntaxEdit
