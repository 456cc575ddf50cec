/-
How similar two texts are, as the Jaro–Winkler score between 0 and 1.

* `jaro` — common characters that stand near each other, less their transpositions;
* `jaroWinkler` — the same, raised for texts that start alike.

Scores are never negative, so their order is that of their bit patterns.
-/
import SyntaxEdit.Text.Basic

namespace SyntaxEdit

/-- The position of the first free occurrence of a character from position `low` to `high`, in a
text whose characters are marked as taken or free. -/
def freeOccurrence? (c : Char) (low high : Nat) (marked : List (Char × Bool)) : Option Nat :=
  (List.range marked.length).find? fun j =>
    low ≤ j && j ≤ high && marked[j]? == some (c, false)

/-- Pair each character of a text with the first free equal character of another that is at most
`reach` positions away: the paired characters, and the other text with its paired ones marked. -/
def pairCharacters (reach : Nat) (i : Nat) (marked : List (Char × Bool)) :
    Text → Text × List (Char × Bool)
  | [] => ([], marked)
  | c :: rest =>
    match freeOccurrence? c (i - reach) (i + reach) marked with
    | some j =>
      let (paired, final) := pairCharacters reach (i + 1) (marked.set j (c, true)) rest
      (c :: paired, final)
    | none => pairCharacters reach (i + 1) marked rest

/-- The Jaro similarity of two texts. -/
def jaro (a b : Text) : Float :=
  if a = [] ∧ b = [] then 1
  else if a = [] ∨ b = [] then 0
  else
    let reach := max a.length b.length / 2 - 1
    let (ofA, marked) := pairCharacters reach 0 (b.map fun c => (c, false)) a
    let ofB := (marked.filter Prod.snd).map Prod.fst
    let transpositions := ((ofA.zip ofB).countP fun (x, y) => x ≠ y) / 2
    let count := ofA.length
    if count = 0 then 0
    else
      (count.toFloat / a.length.toFloat + count.toFloat / b.length.toFloat +
        (count - transpositions).toFloat / count.toFloat) / 3

/-- The number of characters that two texts start with in common, at most `limit`. -/
def commonStart (limit : Nat) (a b : Text) : Nat :=
  (((a.zip b).take limit).takeWhile fun (x, y) => x = y).length

/-- The Jaro–Winkler similarity: scores above 0.7 are raised for a common start of up to four
characters. -/
def jaroWinkler (a b : Text) : Float :=
  let score := jaro a b
  if score > 0.7 then score + (0.1 * (commonStart 4 a b).toFloat) * (1.0 - score) else score

/-- A similarity score as a number that orders as the scores do. -/
def similarityRank (a b : Text) : Nat :=
  (jaroWinkler a b).toBits.toNat

/-- The rank that a text has to exceed to be similar: that of a score of 0.8. -/
def similarityThreshold : Nat :=
  (0.8 : Float).toBits.toNat

end SyntaxEdit
