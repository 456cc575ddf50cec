/-
Splitting a query text is stable under dropping patterns.

A text is cut only at the top, that is in code and outside of all brackets.  So every pattern starts
there, whatever stands before it, and all but the last one lead back there.  Trimming may take away
the newline that ends the last comment of a pattern, but nothing else that the next pattern relies
on, and the newlines between the kept patterns make up for it.

* `IsPiece` — a text that is cut in front of its first character and nowhere else;
* `ArePatterns`, `ArePatterns.sublist` — patterns that can follow each other, and that still can
  when some are left out;
* `ArePatterns.splitPatterns_joinWith` — they are what their join is split into;
* `exists_spacedPatterns` — what a text consists of besides its patterns;
* `splitPatterns_kept` — the two together, for any text.
-/
import SyntaxEdit.Proofs.PatternPlaces
import SyntaxEdit.Proofs.QueryGaps
import SyntaxEdit.Proofs.Trimming

namespace SyntaxEdit

namespace Query

variable {t p : Text} {c : Char} {context : QueryContext} {place final : Place}

/-! ### Patterns -/

/-- An opening bracket and what follows it up to a place, without another place to cut it. -/
inductive IsPiece : Text → Place → Prop
  | mk {c : Char} {t : Text} {final : Place} (hc : opensBracket c = true)
      (h : Uncut (Place.top.after c) t final) : IsPiece (c :: t) final

theorem IsPiece.patterns_append (h : IsPiece p final) (current : Option Text) (rest : Text) :
    Place.top.patterns current (p ++ rest) =
      finishPattern current ++ final.patterns (some p.reverse) rest := by
  obtain ⟨hc, huncut⟩ := h
  rw [List.cons_append, Place.patterns_of_opensBracket hc, huncut.patterns_append]
  simp

/-- A piece at the end of a text is the last pattern of the text. -/
theorem IsPiece.patterns_eq (h : IsPiece p final) (current : Option Text) :
    Place.top.patterns current p = finishPattern current ++ [Text.trim p] := by
  have hsplit := h.patterns_append current []
  rwa [List.append_nil, Place.patterns_nil, finishPattern, List.reverse_reverse] at hsplit

theorem not_isBlank_of_opensBracket (hc : opensBracket c = true) : isBlank c = false := by
  simp only [opensBracket, Bool.or_eq_true, decide_eq_true_eq] at hc
  rcases hc with rfl | rfl <;> decide

/-- A pattern with the white space behind it. -/
structure SpacedPattern where
  pattern : Text
  gap : Text
  trimmed : Text.trim pattern = pattern
  opens : ∃ c ∈ pattern.head?, opensBracket c = true
  blank : Text.isBlankText gap = true

/-- The text up to the next pattern. -/
def SpacedPattern.text (part : SpacedPattern) : Text :=
  part.pattern ++ part.gap

/-- **Trimming takes white space off the end of a piece**, and the rest is a piece.  Behind both, a
newline leads to the same place. -/
theorem IsPiece.exists_spacedPattern (h : IsPiece p final) :
    ∃ (part : SpacedPattern) (place : Place), part.text = p ∧ part.pattern = Text.trim p ∧
      IsPiece part.pattern place ∧ place.after '\n' = final.after '\n' := by
  obtain @⟨c, t, _, hc, huncut⟩ := h
  have hvisible := not_isBlank_of_opensBracket hc
  have htrim : c :: Text.trimEnd t = Text.trim (c :: t) := by
    have hstart : Text.trimStart (c :: t) = c :: t :=
      Text.dropWhile_eq_self (by simpa using hvisible)
    have hend : Text.trimEnd ([c] ++ t) = [c] ++ Text.trimEnd t :=
      Text.trimEndWhile_append (by simpa using hvisible)
    rw [Text.trim, hstart]
    exact hend.symm
  have hsplit : Text.trimEnd t ++ Text.takeEndWhile isBlank t = t :=
    Text.trimEndWhile_append_takeEndWhile isBlank t
  have hgap : ∀ d ∈ Text.takeEndWhile isBlank t, isBlank d = true :=
    fun _ => Text.mem_takeEndWhile
  -- The place in front of the white space may be in a comment that ends in it.
  rw [← hsplit] at huncut
  obtain ⟨place, hfront, hback⟩ := huncut.exists_of_append
  refine ⟨⟨c :: Text.trimEnd t, Text.takeEndWhile isBlank t, ?_, ⟨c, rfl, hc⟩,
    List.all_eq_true.2 hgap⟩, place, ?_, htrim, .mk hc hfront, (hback.after_newline_eq hgap).symm⟩
  · rw [htrim, Text.trim_trim]
  · rw [SpacedPattern.text, List.cons_append, hsplit]

/-- Patterns that can follow each other.  Behind all but the last one, a newline leads to the
top. -/
inductive ArePatterns : List Text → Prop
  | nil : ArePatterns []
  | last {p : Text} {final : Place} (h : IsPiece p final) : ArePatterns [p]
  | next {p : Text} {final : Place} {others : List Text} (h : IsPiece p final)
      (hfinal : final.after '\n' = .top) (hothers : ArePatterns others) : ArePatterns (p :: others)

variable {kept patterns : List Text}

/-- **Patterns that are left out are not missed.** -/
theorem ArePatterns.sublist (h : ArePatterns patterns) (hkept : kept.Sublist patterns) :
    ArePatterns kept := by
  -- A pattern that others follow ends at the top, which does not depend on the next one.
  induction h generalizing kept with
  | nil =>
    rw [List.sublist_nil.1 hkept]
    exact .nil
  | last h =>
    cases hkept with
    | cons _ hkept =>
      rw [List.sublist_nil.1 hkept]
      exact .nil
    | cons_cons _ hkept =>
      rw [List.sublist_nil.1 hkept]
      exact .last h
  | next h hfinal _ ih =>
    cases hkept with
    | cons _ hkept => exact ih hkept
    | cons_cons _ hkept => exact .next h hfinal (ih hkept)

/-- Blank lines lead to the top wherever a newline does. -/
theorem uncut_blankLine (h : final.after '\n' = .top) : Uncut final ['\n', '\n'] .top := by
  have hbreak : ∀ place : Place, ¬place.Cuts '\n' := fun _ hcuts => absurd hcuts.2 (by decide)
  refine .cons (hbreak _) (.cons (hbreak _) ?_)
  rw [h]
  exact .nil

/-- A pattern with blank lines and others behind it. -/
theorem IsPiece.patterns_append_blankLine (h : IsPiece p final) (hfinal : final.after '\n' = .top)
    (htrim : Text.trim p = p) (current : Option Text) (rest : Text) :
    ∃ current', finishPattern current' = [p] ∧
      Place.top.patterns current (p ++ ['\n', '\n'] ++ rest) =
        finishPattern current ++ Place.top.patterns current' rest := by
  have hne : p ≠ [] := by
    obtain ⟨⟩ := h
    exact List.cons_ne_nil _ _
  refine ⟨some (['\n', '\n'].reverse ++ p.reverse), ?_, ?_⟩
  · rw [finishPattern, ← List.reverse_append, List.reverse_reverse,
      Text.trim_append_of_trim_eq_self htrim hne (List.all_eq_true.1 rfl)]
  · rw [List.append_assoc, h.patterns_append, (uncut_blankLine hfinal).patterns_append]
    rfl

/-- **Patterns are what their join is split into.** -/
theorem ArePatterns.splitPatterns_joinWith (h : ArePatterns patterns)
    (htrim : ∀ p ∈ patterns, Text.trim p = p) :
    splitPatterns (Text.joinWith ['\n', '\n'] patterns) = patterns := by
  -- For the induction, the join stands behind what has been met of another pattern.
  have hjoin : ∀ current, Place.top.patterns current (Text.joinWith ['\n', '\n'] patterns) =
      finishPattern current ++ patterns := by
    induction h with
    | nil => simp [Text.joinWith, Place.patterns_nil]
    | last h =>
      intro current
      rw [Text.joinWith, h.patterns_eq, htrim _ List.mem_cons_self]
    | @next p final others h hfinal _ ih =>
      intro current
      obtain ⟨hp, hrest⟩ := List.forall_mem_cons.1 htrim
      cases others with
      | nil => rw [Text.joinWith, h.patterns_eq, hp]
      | cons q others =>
        obtain ⟨current', hcurrent', hnext⟩ := h.patterns_append_blankLine hfinal hp current
          (Text.joinWith ['\n', '\n'] (q :: others))
        rw [Text.joinWith, hnext, ih hrest, hcurrent', List.singleton_append]
  exact hjoin none

/-! ### What a text consists of -/

/-- From a place to cut on, a text consists of patterns with white space behind them. -/
theorem exists_spacedPatterns_of_opensBracket {c : Char} (hc : opensBracket c = true)
    (rest : Text) :
    ∃ parts : List SpacedPattern, c :: rest = parts.flatMap SpacedPattern.text ∧
      ArePatterns (parts.map SpacedPattern.pattern) ∧
      ∀ current, Place.top.patterns current (c :: rest) =
        finishPattern current ++ parts.map SpacedPattern.pattern := by
  rcases exists_uncut (Place.top.after c) rest with
    ⟨final, huncut⟩ | ⟨front, d, others, hrest, hfront, hd⟩
  · -- There is no other place to cut.
    have hpiece : IsPiece (c :: rest) final := .mk hc huncut
    obtain ⟨part, place, htext, hpattern, hpart, -⟩ := hpiece.exists_spacedPattern
    refine ⟨[part], by simp [htext], .last hpart, fun current => ?_⟩
    rw [hpiece.patterns_eq, ← hpattern]
    rfl
  · -- The piece up to the next place to cut leads back to the top, and the rest is shorter.
    have hpiece : IsPiece (c :: front) .top := .mk hc hfront
    have hshorter : others.length < rest.length := by
      rw [hrest, List.length_append, List.length_cons]
      omega
    obtain ⟨part, place, htext, hpattern, hpart, hplace⟩ := hpiece.exists_spacedPattern
    obtain ⟨parts, hparts, hpatterns, hothers⟩ := exists_spacedPatterns_of_opensBracket hd others
    refine ⟨part :: parts, ?_, .next hpart (hplace.trans rfl) hpatterns, fun current => ?_⟩
    · rw [List.flatMap_cons, htext, ← hparts, hrest, List.cons_append]
    · rw [hrest, ← List.cons_append, hpiece.patterns_append, hothers, finishPattern,
        List.reverse_reverse, ← hpattern]
      rfl
termination_by rest.length

/-- Whether no opening bracket stands outside of strings and comments. -/
def HasNoOpening (t : Text) : Prop :=
  ∀ before c after, before ++ c :: after = t → EndsInCode before → opensBracket c = false

theorem Place.after_of_not_cuts (hc : ¬(⟨context, 0⟩ : Place).Cuts c) :
    (⟨context, 0⟩ : Place).after c = ⟨context.after c, 0⟩ := by
  have hopens : ¬(context = .code ∧ opensBracket c = true) := by
    rintro ⟨rfl, hopens⟩
    exact hc ⟨rfl, hopens⟩
  simp [Place.after, hopens]

/-- Outside of all brackets, an uncut text leads outside of all brackets. -/
theorem Uncut.eq_contextAfter (h : Uncut ⟨context, 0⟩ t final) :
    final = ⟨contextAfter context t, 0⟩ := by
  induction t generalizing context with
  | nil =>
    cases h
    rfl
  | cons c t ih =>
    obtain _ | ⟨hc, h⟩ := h
    rw [Place.after_of_not_cuts hc] at h
    exact ih h

/-- In front of the first place to cut, no bracket is opened. -/
theorem Uncut.hasNoOpening (h : Uncut .top t final) : HasNoOpening t := by
  rintro before c after rfl hcode
  obtain ⟨middle, hbefore, hrest⟩ := h.exists_of_append
  obtain rfl := hbefore.eq_contextAfter
  obtain _ | ⟨hc, -⟩ := hrest
  refine Bool.eq_false_iff.2 fun hopens => hc ⟨?_, hopens⟩
  rw [show contextAfter .code before = .code from hcode, Place.top]

/-- **A text consists of its patterns**, with white space behind them, and of what stands in front
of the first opening bracket outside of strings and comments. -/
theorem exists_spacedPatterns (t : Text) :
    ∃ (front : Text) (parts : List SpacedPattern),
      t = front ++ parts.flatMap SpacedPattern.text ∧
        splitPatterns t = parts.map SpacedPattern.pattern ∧
        ArePatterns (parts.map SpacedPattern.pattern) ∧
        HasNoOpening front ∧ (parts ≠ [] → EndsInCode front) := by
  -- A text is never cut, or there is a first place to cut, where the patterns begin.
  rcases exists_uncut .top t with ⟨final, huncut⟩ | ⟨front, c, rest, rfl, hfront, hc⟩
  · refine ⟨t, [], by simp, ?_, .nil, huncut.hasNoOpening, by simp⟩
    have hsplit := huncut.patterns_append none []
    rw [List.append_nil] at hsplit
    exact hsplit
  · obtain ⟨parts, hparts, hpatterns, hsplit⟩ := exists_spacedPatterns_of_opensBracket hc rest
    refine ⟨front, parts, by rw [hparts], ?_, hpatterns, hfront.hasNoOpening, fun _ => ?_⟩
    · exact (hfront.patterns_append none (c :: rest)).trans (hsplit none)
    · exact (congrArg Place.context hfront.eq_contextAfter).symm

end Query

open Query

/-- **Splitting is stable under dropping patterns.**  Any patterns of a text, in their order, are
what their join is split into.  The text consists of its patterns, of white space behind them, and
of what stands in front of the first opening bracket outside of strings and comments. -/
theorem splitPatterns_kept (source : Text) :
    (∀ kept, kept.Sublist (splitPatterns source) →
        splitPatterns (Text.joinWith ['\n', '\n'] kept) = kept) ∧
      ∃ (front : Text) (parts : List SpacedPattern),
        source = front ++ parts.flatMap SpacedPattern.text ∧
          splitPatterns source = parts.map SpacedPattern.pattern ∧
          HasNoOpening front ∧ (parts ≠ [] → EndsInCode front) := by
  obtain ⟨front, parts, hsource, hsplit, hpatterns, hnone, hcode⟩ := exists_spacedPatterns source
  refine ⟨fun kept hkept => ?_, front, parts, hsource, hsplit, hnone, hcode⟩
  rw [hsplit] at hkept
  refine (hpatterns.sublist hkept).splitPatterns_joinWith fun p hp => ?_
  obtain ⟨part, -, rfl⟩ := List.mem_map.1 (hkept.subset hp)
  exact part.trimmed

/-- A comment, then a pattern that ends with a comment, one with more closing brackets than opening
ones, and one that is not closed. -/
def unbalancedPatterns : Text :=
  "; (\n(a \"\\\"(\") @x ; [\n\n[b) ]) @y\n(c [".toList

/-- The comment of the first pattern ends in front of the last one too. -/
theorem splitPatterns_kept_unbalancedPatterns :
    splitPatterns unbalancedPatterns =
        ["(a \"\\\"(\") @x ; [".toList, "[b) ]) @y".toList, "(c [".toList] ∧
      splitPatterns "(a \"\\\"(\") @x ; [\n\n(c [".toList =
        ["(a \"\\\"(\") @x ; [".toList, "(c [".toList] := by
  have hsplit : splitPatterns unbalancedPatterns =
      ["(a \"\\\"(\") @x ; [".toList, "[b) ]) @y".toList, "(c [".toList] := by decide
  refine ⟨hsplit, (splitPatterns_kept unbalancedPatterns).1
    ["(a \"\\\"(\") @x ; [".toList, "(c [".toList] ?_⟩
  rw [hsplit]
  exact .cons_cons _ (.cons _ (.cons_cons _ .slnil))

end SyntaxEdit
