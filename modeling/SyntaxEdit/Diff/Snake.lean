/-
Where to split two lists so that a shortest edit script goes through the split.

An edit script is a path from the front of both lists to their back: one step in the first list
deletes an element, one step in the second inserts one, and a step in both keeps one. The search
runs from both ends at once. In round `d` it knows, for each way to have made `d` deletions and
insertions in all, how far in the first list one can get, where ways differ by their numbers of
deletions and insertions. It stops when what is reached from the two ends covers the first list.

* `commonFront`, `commonBack` — how many elements two lists share at their front and at their back;
* `middleOf?` — the split.
-/

namespace SyntaxEdit

variable {α : Type} [DecidableEq α]

/-- The number of elements that two lists share at their front. -/
def commonFront : List α → List α → Nat
  | x :: xs, y :: ys => if x = y then commonFront xs ys + 1 else 0
  | _, _ => 0

/-- The number of elements that two lists share at their back. -/
def commonBack (xs ys : List α) : Nat :=
  commonFront xs.reverse ys.reverse

/-- What one way reaches in a round: from `x` in the first list and `y` in the second, as many equal
elements as follow there. -/
structure Reach where
  x : Nat
  y : Nat
  kept : Nat

/-- The place in the first list up to which one gets. -/
def Reach.stop (r : Reach) : Nat := r.x + r.kept

/-- Where the ways of a round start in the first list, from where those of the round before stop: by
one more insertion, or by one more deletion, whichever gets further. The way with the most deletions
comes first. -/
def nextStarts (previous : List Nat) : List Nat :=
  ((none :: previous.map some).zip (previous.map some ++ [none])).map fun
    | (some byInsertion, some byDeletion) =>
      if byDeletion < byInsertion then byInsertion else byDeletion + 1
    | (some byInsertion, none) => byInsertion
    | (none, some byDeletion) => byDeletion + 1
    | (none, none) => 0

/-- All that is reached in round `d`. The way at position `i` has `d - i` deletions and `i`
insertions, so its places in the lists differ by `d - 2 * i`. -/
def reachesOf (a b : List α) (d : Nat) (previous : List Nat) : List Reach :=
  (nextStarts previous).zipIdx.map fun (x, i) =>
    let y := x + 2 * i - d
    ⟨x, y, commonFront (a.drop x) (b.drop y)⟩

/-- How far one gets from the other end on the way that can meet the way at position `i` of round
`d`: the deletions and insertions of both together account for the lengths `n` and `m` of the
lists. -/
def facing? (n m d i : Nat) (other : List Nat) : Option Nat :=
  let total := d + other.length - 1
  if 2 * i + n ≤ total + m ∧ (total + m - n) % 2 = 0 then other[(total + m - 2 * i - n) / 2]?
  else none

/-- The first way of round `d` that meets one from the other end. -/
def meeting? (n m d : Nat) (reaches : List Reach) (other : List Nat) : Option Reach :=
  (reaches.zipIdx.find? fun (r, i) =>
    match facing? n m d i other with
    | some stop => n ≤ r.stop + stop
    | none => false).map Prod.fst

/-- Search from round `d` on, for at most `rounds` rounds. -/
def searchMiddle (a b : List α) : Nat → Nat → List Nat → List Nat → Option (Nat × Nat)
  | 0, _, _, _ => none
  | rounds + 1, d, fromFront, fromBack =>
    let ahead := reachesOf a b d fromFront
    match meeting? a.length b.length d ahead fromBack with
    | some r => some (r.x, r.y)
    | none =>
      -- The second half of the round starts from the back, and faces what the first half reached.
      let behind := reachesOf a.reverse b.reverse d fromBack
      match meeting? a.length b.length d behind (ahead.map Reach.stop) with
      | some r => some (a.length - r.stop, b.length - (r.y + r.kept))
      | none => searchMiddle a b rounds (d + 1) (ahead.map Reach.stop) (behind.map Reach.stop)

/-- Where to split two lists, as a place in each. -/
def middleOf? (a b : List α) : Option (Nat × Nat) :=
  searchMiddle a b ((a.length + b.length + 1) / 2 + 1) 0 [] []

end SyntaxEdit
