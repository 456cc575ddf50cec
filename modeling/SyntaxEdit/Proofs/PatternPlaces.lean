/-
The places of a query text, and where it is cut.

A place is told by the context and by the number of open brackets.  A text is cut in front of an
opening bracket at the top, that is in code and outside of all brackets.

* `Place`, `Place.Cuts` — where in a text a character stands, and whether the text is cut there;
* `Uncut` — a text that leads from one place to another without a place to cut it;
* `exists_uncut` — every text is uncut up to the first place to cut it, or up to its end;
* `Uncut.after_newline_eq` — white space at its end makes no difference to where a newline leads.
-/
import SyntaxEdit.Query.Split

namespace SyntaxEdit

namespace Query

variable {s t : Text} {c : Char}

/-! ### Places -/

/-- Where in a query text the next character stands: in which context, and in how many brackets. -/
structure Place where
  context : QueryContext
  depth : Nat

namespace Place

/-- Outside of all brackets, strings and comments. -/
def top : Place := ⟨.code, 0⟩

/-- The place behind a character.  A closing bracket that nothing has opened counts for nothing. -/
def after (place : Place) (c : Char) : Place where
  context := place.context.after c
  depth :=
    if place.context = .code ∧ opensBracket c then place.depth + 1
    else if place.context = .code ∧ closesBracket c then place.depth - 1
    else place.depth

/-- Whether a text is cut in front of a character. -/
def Cuts (place : Place) (c : Char) : Prop :=
  place = .top ∧ opensBracket c = true

/-- The patterns of the rest of a text, with what has been met of the current one. -/
def patterns (place : Place) (current : Option Text) (t : Text) : List Text :=
  splitPatternsFrom place.context place.depth current t

theorem patterns_nil (place : Place) (current : Option Text) :
    place.patterns current [] = finishPattern current := rfl

theorem patterns_of_opensBracket (hc : opensBracket c = true) (current : Option Text)
    (rest : Text) :
    top.patterns current (c :: rest) =
      finishPattern current ++ (top.after c).patterns (some [c]) rest := by
  simp only [patterns, splitPatternsFrom, top, after, hc, and_self, if_true]

theorem patterns_of_not_cuts {place : Place} (hc : ¬place.Cuts c) (current : Option Text)
    (rest : Text) :
    place.patterns current (c :: rest) =
      (place.after c).patterns (current.map (c :: ·)) rest := by
  obtain ⟨context, depth⟩ := place
  rw [patterns, splitPatternsFrom, patterns, after]
  -- An opening bracket in code that cuts nothing has other brackets around it.
  by_cases hopens : context = .code ∧ opensBracket c = true
  · have hdepth : depth ≠ 0 := by
      rintro rfl
      exact hc ⟨by rw [hopens.1, top], hopens.2⟩
    simp only [if_pos hopens, if_neg hdepth]
  · simp only [if_neg hopens]
    split <;> rfl

/-- A newline leads to the same place with white space before it. -/
theorem after_newline_of_isBlank (hc : isBlank c = true) (place : Place) :
    (place.after c).after '\n' = place.after '\n' := by
  have hne : ∀ d, isBlank d = false → c ≠ d := by
    rintro d hd rfl
    rw [hc] at hd
    cases hd
  have hopens : opensBracket c = false := by
    simp [opensBracket, hne '(' (by decide), hne '[' (by decide)]
  have hcloses : closesBracket c = false := by
    simp [closesBracket, hne ')' (by decide), hne ']' (by decide)]
  obtain ⟨context, depth⟩ := place
  -- A newline closes a comment and nothing else, and no white space closes a string or starts one.
  have hcontext : (context.after c).after '\n' = context.after '\n' := by
    cases context with
    | code => simp [QueryContext.after, hne ';' (by decide), hne '"' (by decide)]
    | comment => by_cases h : c = '\n' <;> simp [QueryContext.after, h]
    | string => simp [QueryContext.after, hne '\\' (by decide), hne '"' (by decide)]
    | escape => simp [QueryContext.after]
  have hbreak : opensBracket '\n' = false ∧ closesBracket '\n' = false := by decide
  simp [after, hopens, hcloses, hcontext, hbreak]

end Place

/-! ### Texts without a place to cut -/

/-- A text that leads from one place to another and is not cut anywhere. -/
inductive Uncut : Place → Text → Place → Prop
  | nil {place : Place} : Uncut place [] place
  | cons {place final : Place} {c : Char} {t : Text} (hc : ¬place.Cuts c)
      (h : Uncut (place.after c) t final) : Uncut place (c :: t) final

variable {place final : Place}

/-- An uncut text goes on with the current pattern. -/
theorem Uncut.patterns_append (h : Uncut place t final) (current : Option Text) (rest : Text) :
    place.patterns current (t ++ rest) = final.patterns (current.map (t.reverse ++ ·)) rest := by
  induction h generalizing current with
  | nil => simp
  | cons hc _ ih =>
    rw [List.cons_append, Place.patterns_of_not_cuts hc, ih, Option.map_map]
    simp [Function.comp_def]

theorem Uncut.exists_of_append (h : Uncut place (s ++ t) final) :
    ∃ middle, Uncut place s middle ∧ Uncut middle t final := by
  induction s generalizing place with
  | nil => exact ⟨place, .nil, h⟩
  | cons c s ih =>
    obtain _ | ⟨hc, h⟩ := h
    obtain ⟨middle, hs, ht⟩ := ih h
    exact ⟨middle, .cons hc hs, ht⟩

/-- A text goes on to its end, or to the first place where it is cut. -/
theorem exists_uncut (place : Place) (t : Text) :
    (∃ final, Uncut place t final) ∨
      ∃ front c rest, t = front ++ c :: rest ∧ Uncut place front .top ∧ opensBracket c = true := by
  induction t generalizing place with
  | nil => exact .inl ⟨place, .nil⟩
  | cons c t ih =>
    by_cases hc : place.Cuts c
    · exact .inr ⟨[], c, t, rfl, hc.1 ▸ .nil, hc.2⟩
    · rcases ih (place.after c) with ⟨final, h⟩ | ⟨front, d, rest, rfl, hfront, hd⟩
      · exact .inl ⟨final, .cons hc h⟩
      · exact .inr ⟨c :: front, d, rest, rfl, .cons hc hfront, hd⟩

/-- White space at the end makes no difference to where a newline leads. -/
theorem Uncut.after_newline_eq (h : Uncut place t final) (hblank : ∀ c ∈ t, isBlank c = true) :
    final.after '\n' = place.after '\n' := by
  induction h with
  | nil => rfl
  | cons _ _ ih =>
    obtain ⟨hc, ht⟩ := List.forall_mem_cons.1 hblank
    rw [ih ht, Place.after_newline_of_isBlank hc]

end Query

end SyntaxEdit
