/-
The order of texts.

The first character in which two texts differ decides, by its code point; a front part of a text
comes before it. This is also the order of their bytes.

* `Text.precedes` — whether a text comes before another, or is the same;
* `precedes_total`, `precedes_trans`, `precedes_antisymm` — texts stand in one line;
* `sortTexts` — texts in ascending order.
-/
import SyntaxEdit.Text.Basic

namespace SyntaxEdit

namespace Text

/-- Whether a text comes before another, or is the same. -/
def precedes : Text → Text → Bool
  | [], _ => true
  | _ :: _, [] => false
  | c :: s, d :: t => if c = d then precedes s t else c.toNat < d.toNat

theorem toNat_ne_of_ne {c d : Char} (h : c ≠ d) : c.toNat ≠ d.toNat := by
  intro same
  exact h (Char.ext (UInt32.toNat_inj.1 same))

/-- Of two texts one comes before the other. -/
theorem precedes_total (s t : Text) : precedes s t = true ∨ precedes t s = true := by
  induction s generalizing t with
  | nil => exact Or.inl rfl
  | cons c s ih =>
    cases t with
    | nil => exact Or.inr rfl
    | cons d t =>
      by_cases same : c = d
      · subst same
        simpa [precedes] using ih t
      · have differ := toNat_ne_of_ne same
        have other : ¬ d = c := fun h => same h.symm
        simp only [precedes, if_neg same, if_neg other, decide_eq_true_eq]
        omega

theorem precedes_trans {s t u : Text} (first : precedes s t = true)
    (second : precedes t u = true) : precedes s u = true := by
  induction s generalizing t u with
  | nil => rfl
  | cons c s ih =>
    cases t with
    | nil => cases first
    | cons d t =>
      cases u with
      | nil => cases second
      | cons e u =>
        simp only [precedes] at first second ⊢
        split at first
        · rename_i same
          subst same
          split at second
          · rename_i same
            rw [if_pos same]
            exact ih first second
          · rename_i differ
            rw [if_neg differ]
            exact second
        · rename_i differ
          simp only [decide_eq_true_eq] at first
          split at second
          · rename_i same
            subst same
            rw [if_neg differ]
            simpa using first
          · simp only [decide_eq_true_eq] at second
            have apart : ¬ c = e := by
              rintro rfl
              omega
            rw [if_neg apart]
            simp only [decide_eq_true_eq]
            omega

/-- Texts that come before each other are the same. -/
theorem precedes_antisymm {s t : Text} (first : precedes s t = true)
    (second : precedes t s = true) : s = t := by
  induction s generalizing t with
  | nil =>
    cases t with
    | nil => rfl
    | cons d t => cases second
  | cons c s ih =>
    cases t with
    | nil => cases first
    | cons d t =>
      by_cases same : c = d
      · subst same
        simp only [precedes, ↓reduceIte] at first second
        rw [ih first second]
      · have other : ¬ d = c := fun h => same h.symm
        simp only [precedes, if_neg same, if_neg other, decide_eq_true_eq] at first second
        omega

end Text

/-- Texts in ascending order. -/
def sortTexts (texts : List Text) : List Text :=
  texts.mergeSort Text.precedes

end SyntaxEdit
