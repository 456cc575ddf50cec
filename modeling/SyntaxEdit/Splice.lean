/-
The edit primitive: one byte range of a text replaced by a new text.

* `Splice.apply` — the edited text, or the invalid range;
* `Splice.apply_eq_ok_iff` — a splice keeps what stands before and after its range.
-/
import SyntaxEdit.Text.Range

namespace SyntaxEdit

/-- Replace the bytes from `start` to `stop` by `replacement`. -/
structure Splice where
  start : Nat
  stop : Nat
  replacement : Text
deriving DecidableEq

namespace Splice

/-- Add a text at an offset without removing anything. -/
def insert (offset : Nat) (addition : Text) : Splice :=
  ⟨offset, offset, addition⟩

/-- The edited text. The range has to be ordered, inside the text and between characters. -/
def apply (s : Splice) (t : Text) : Except InvalidRange Text :=
  match Text.cut? t s.start, Text.cut? t s.stop with
  | some (before, _), some (_, after) =>
    if s.start ≤ s.stop then .ok (before ++ s.replacement ++ after)
    else .error ⟨s.start, s.stop, Text.byteLength t⟩
  | _, _ => .error ⟨s.start, s.stop, Text.byteLength t⟩

/-- A splice succeeds exactly on a slice of the text, and changes nothing around it. -/
theorem apply_eq_ok_iff {s : Splice} {t r : Text} :
    s.apply t = .ok r ↔
      s.start ≤ s.stop ∧
        ∃ before middle middle' after, Text.cut? t s.start = some (before, middle') ∧
          Text.cut? t s.stop = some (middle, after) ∧ r = before ++ s.replacement ++ after := by
  simp only [apply]
  constructor
  · intro h
    split at h
    · rename_i before middle' middle after atStart atStop
      split at h
      · rename_i ordered
        cases h
        exact ⟨ordered, before, middle, middle', after, atStart, atStop, rfl⟩
      · cases h
    · cases h
  · rintro ⟨ordered, before, middle, middle', after, atStart, atStop, rfl⟩
    rw [atStart, atStop]
    simp [ordered]

end Splice

end SyntaxEdit
