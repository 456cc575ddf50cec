/-
Classes of characters given by ranges of code points.

The tables of the Unicode properties that this library uses are values of `CharRanges`, in
ascending order, all of Unicode 16.0.
-/

namespace SyntaxEdit

/-- Inclusive ranges of code points. -/
abbrev CharRanges := List (Nat × Nat)

namespace CharRanges

/-- Whether a character lies in one of the ranges. -/
def contains (ranges : CharRanges) (c : Char) : Bool :=
  ranges.any fun (first, last) => first ≤ c.toNat && c.toNat ≤ last

end CharRanges

end SyntaxEdit
