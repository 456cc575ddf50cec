/-
Known paths that are close to one that was not found.

* `closest` — the best candidates under any score;
* `SyntaxTree.suggestBy`, `SyntaxTree.suggest` — the semantic paths of a tree that score best with a
  path, and that are most similar to it.
-/
import SyntaxEdit.Construct.Resolution
import SyntaxEdit.Text.Order
import SyntaxEdit.Text.Similarity

namespace SyntaxEdit

/-- Whether a candidate with a score comes before another, or could: it scores higher, or the same
and its text is no greater. -/
def ranksBefore {α : Type} [LT α] [DecidableLT α] (a b : α × Text) : Bool :=
  b.1 < a.1 || (!decide (a.1 < b.1) && Text.precedes a.2 b.2)

/-- The three best of the distinct candidates that score above a threshold, the highest score
first. -/
def closest {α : Type} [LT α] [DecidableLT α] (score : Text → α) (threshold : α)
    (candidates : List Text) : List Text :=
  let scored := (firstOfEach id candidates).map fun candidate => (score candidate, candidate)
  (((scored.filter fun entry => threshold < entry.1).mergeSort ranksBefore).take 3).map Prod.snd

/-- Up to three semantic paths of a tree that score above a threshold with a path. -/
def SyntaxTree.suggestBy {α : Type} [LT α] [DecidableLT α] (score : Text → Text → α) (threshold : α)
    (t : SyntaxTree) (path : Text) : List Text :=
  closest (score path) threshold t.semanticPaths

/-- Up to three semantic paths of a tree that are similar to a path. -/
def SyntaxTree.suggest (t : SyntaxTree) (path : Text) : List Text :=
  t.suggestBy similarityRank similarityThreshold path

end SyntaxEdit
