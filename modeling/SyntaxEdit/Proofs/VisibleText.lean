/-
The visible part of a text: its characters but for white space.

Dedenting and indenting, trimming, and writing lines with other breaks only add and take away white
space, so they keep the visible part.

* `Text.visible` — the characters of a text that are no white space, in order;
* `visible_rows`, `visible_joinWith` — lines hold all of a text that is visible;
* `visible_dedent`, `visible_indentBy` — changing the indentation keeps the visible part;
* `visible_memberBlock`, `visible_appendToEnd` — so does laying out a new member.
-/
import SyntaxEdit.Edit.Member
import SyntaxEdit.Proofs.Splitting
import SyntaxEdit.Proofs.Trimming

namespace SyntaxEdit

theorem isBlank_of_isIndent {c : Char} (h : isIndent c = true) : isBlank c = true := by
  rcases Bool.or_eq_true_iff.1 h with h | h <;> rw [of_decide_eq_true h] <;> decide

theorem isBlank_of_isBreak {c : Char} (h : isBreak c = true) : isBlank c = true := by
  rcases Bool.or_eq_true_iff.1 h with h | h <;> rw [of_decide_eq_true h] <;> decide

namespace Text

/-- The characters of a text that are no white space, in order. -/
def visible (t : Text) : Text :=
  t.filter fun c => !isBlank c

variable {t : Text}

@[simp] theorem visible_nil : visible [] = [] := rfl

@[simp] theorem visible_append (s t : Text) : visible (s ++ t) = visible s ++ visible t :=
  List.filter_append ..

theorem visible_cons_of_isBlank {c : Char} (h : isBlank c = true) (t : Text) :
    visible (c :: t) = visible t :=
  List.filter_cons_of_neg (by simp [h])

theorem visible_eq_nil_iff : visible t = [] ↔ ∀ c ∈ t, isBlank c = true := by
  simp [visible, List.filter_eq_nil_iff]

theorem visible_of_isBlankText (h : isBlankText t = true) : visible t = [] :=
  visible_eq_nil_iff.2 (List.all_eq_true.1 h)

theorem visible_of_all_isIndent (h : t.all isIndent = true) : visible t = [] :=
  visible_eq_nil_iff.2 fun c hc => isBlank_of_isIndent (List.all_eq_true.1 h c hc)

@[simp] theorem visible_text (eol : LineBreak) : visible eol.text = [] := by
  cases eol <;> rfl

/-! ### Trimming -/

theorem visible_trimEndWhile {p : Char → Bool} (hp : ∀ c, p c = true → isBlank c = true)
    (t : Text) : visible (trimEndWhile p t) = visible t := by
  have htaken : visible (takeEndWhile p t) = [] :=
    visible_eq_nil_iff.2 fun c hc => hp c (mem_takeEndWhile hc)
  calc visible (trimEndWhile p t)
      = visible (trimEndWhile p t ++ takeEndWhile p t) := by
        rw [visible_append, htaken, List.append_nil]
    _ = visible t := by rw [trimEndWhile_append_takeEndWhile]

theorem visible_dropWhile {p : Char → Bool} (hp : ∀ c, p c = true → isBlank c = true)
    (t : Text) : visible (t.dropWhile p) = visible t := by
  have htaken : visible (t.takeWhile p) = [] :=
    visible_eq_nil_iff.2 fun c hc => hp c (List.all_eq_true.1 List.all_takeWhile c hc)
  calc visible (t.dropWhile p)
      = visible (t.takeWhile p ++ t.dropWhile p) := by rw [visible_append, htaken, List.nil_append]
    _ = visible t := by rw [List.takeWhile_append_dropWhile]

/-! ### Lines -/

theorem visible_joinWith {between : Text} (h : visible between = []) (pieces : List Text) :
    visible (joinWith between pieces) = pieces.flatMap visible := by
  induction pieces with
  | nil => rfl
  | cons piece pieces ih =>
    cases pieces with
    | nil => simp [joinWith]
    | cons next pieces =>
      rw [joinWith, visible_append, visible_append, ih, h, List.append_nil]
      rfl

theorem visible_splitOn (t : Text) : (splitOn '\n' t).flatMap visible = visible t := by
  have hbreak : visible ['\n'] = [] := by decide
  rw [← visible_joinWith hbreak, joinWith_splitOn]

theorem visible_dropReturn (line : Text) : visible (dropReturn line) = visible line := by
  rw [dropReturn]
  split
  · rename_i hlast
    obtain ⟨front, rfl⟩ := List.getLast?_eq_some_iff.1 hlast
    rw [List.dropLast_concat, visible_append, show visible ['\r'] = [] by decide, List.append_nil]
  · rfl

/-- The lines of a text hold all that is visible. -/
theorem visible_rows (t : Text) : (rows t).flatMap visible = visible t := by
  have hlast : visible ((splitOn '\n' t).getLast?.getD []) =
      (if (splitOn '\n' t).getLast?.getD [] = [] then [] else
        [(splitOn '\n' t).getLast?.getD []]).flatMap visible := by
    split
    · rename_i hempty
      rw [hempty]
      rfl
    · simp
  -- A row may lack a return at its end, or an empty piece behind the last newline: nothing visible.
  have hpieces : splitOn '\n' t =
      (splitOn '\n' t).dropLast ++ [(splitOn '\n' t).getLast?.getD []] := by
    rw [List.getLast?_eq_some_getLast (splitOn_ne_nil '\n' t), Option.getD_some,
      List.dropLast_concat_getLast]
  calc (rows t).flatMap visible
      = (splitOn '\n' t).dropLast.flatMap visible ++
          visible ((splitOn '\n' t).getLast?.getD []) := by
        rw [rows, List.flatMap_append, ← hlast, List.flatMap_map]
        simp only [visible_dropReturn]
    _ = (splitOn '\n' t).flatMap visible := by
        conv => rhs; rw [hpieces]
        rw [List.flatMap_append, List.flatMap_singleton]
    _ = visible t := visible_splitOn t

theorem visible_withBreaks (eol : LineBreak) (t : Text) :
    visible (withBreaks eol t) = visible t := by
  induction t with
  | nil => rfl
  | cons c t ih =>
    rw [withBreaks, replaceChar, List.flatMap_cons, visible_append]
    by_cases hc : c = '\n'
    · rw [if_pos hc, visible_text, hc, visible_cons_of_isBlank (by decide)]
      exact ih
    · rw [if_neg hc]
      show visible [c] ++ visible (withBreaks eol t) = visible ([c] ++ t)
      rw [ih, visible_append]

theorem visible_unifyBreaks (t : Text) : visible (unifyBreaks t) = visible t := by
  fun_induction unifyBreaks t with
  | case1 => rfl
  | case2 rest ih =>
    rw [visible_cons_of_isBlank (by decide), visible_cons_of_isBlank (by decide),
      visible_cons_of_isBlank (by decide), ih]
  | case3 c rest _ ih =>
    rw [← List.singleton_append, visible_append, ih, ← visible_append, List.singleton_append]

end Text

open Text (visible)

/-! ### Indentation -/

theorem flatMap_visible_of_isBlankText {lines : List Text}
    (h : ∀ line ∈ lines, Text.isBlankText line = true) : lines.flatMap visible = [] :=
  List.flatMap_eq_nil_iff.2 fun line hline => Text.visible_of_isBlankText (h line hline)

/-- The lines that go at either end have nothing visible on them. -/
theorem visible_innerLines (lines : List Text) :
    (innerLines lines).flatMap visible = lines.flatMap visible := by
  have hstart : ∀ ls : List Text,
      (ls.dropWhile Text.isBlankText).flatMap visible = ls.flatMap visible := by
    intro ls
    conv => rhs; rw [← List.takeWhile_append_dropWhile (p := Text.isBlankText) (l := ls)]
    rw [List.flatMap_append, flatMap_visible_of_isBlankText
      fun line => List.all_eq_true.1 List.all_takeWhile line, List.nil_append]
  -- The blank lines at the end are those at the start of the reversed list.
  have hend : ∀ ls : List Text,
      (ls.reverse.dropWhile Text.isBlankText).reverse.flatMap visible = ls.flatMap visible := by
    intro ls
    have hsplit : ls = (ls.reverse.dropWhile Text.isBlankText).reverse ++
        (ls.reverse.takeWhile Text.isBlankText).reverse := by
      rw [← List.reverse_append, List.takeWhile_append_dropWhile, List.reverse_reverse]
    conv => rhs; rw [hsplit]
    rw [List.flatMap_append, flatMap_visible_of_isBlankText fun line hline =>
      List.all_eq_true.1 List.all_takeWhile line (List.mem_reverse.1 hline), List.append_nil]
  rw [innerLines, hend, hstart]

/-- No line that is not blank has less indentation than the lines share. -/
theorem sharedIndent_le {lines : List Text} {line : Text} (hline : line ∈ lines)
    (hblank : Text.isBlankText line = false) : sharedIndent lines ≤ indentWidth line := by
  have hmem : indentWidth line ∈ (lines.filter (!Text.isBlankText ·)).map indentWidth :=
    List.mem_map_of_mem (List.mem_filter.2 ⟨hline, by simp [hblank]⟩)
  exact List.min?_getD_le_of_mem hmem

theorem visible_dedentLine {width : Nat} {line : Text}
    (h : Text.isBlankText line = false → width ≤ indentWidth line) :
    visible (dedentLine width line) = visible line := by
  rw [dedentLine]
  cases hblank : Text.isBlankText line with
  | true => rw [if_pos rfl, Text.visible_of_isBlankText hblank, Text.visible_nil]
  | false =>
    rw [if_neg (by simp), Text.trimEnd, Text.visible_trimEndWhile (fun _ h => h)]
    -- What is dropped is part of the indentation.
    have hdropped : visible (line.take width) = [] := by
      refine Text.visible_eq_nil_iff.2 fun c hc => isBlank_of_isIndent ?_
      have hindent : line.take width <+: line.takeWhile isIndent :=
        List.prefix_of_prefix_length_le (List.take_prefix _ _) (List.takeWhile_prefix _)
          (Nat.le_trans (List.length_take_le _ _) (h hblank))
      exact List.all_eq_true.1 List.all_takeWhile c (hindent.subset hc)
    conv => rhs; rw [← List.take_append_drop width line, Text.visible_append, hdropped]
    rfl

/-- **Dedenting keeps the visible part.** -/
theorem visible_dedent (content : Text) : visible (dedent content) = visible content := by
  rw [dedent, Text.visible_joinWith (by decide), List.flatMap_map]
  calc (innerLines (Text.rows content)).flatMap
        (fun line => visible (dedentLine (sharedIndent (innerLines (Text.rows content))) line))
      = (innerLines (Text.rows content)).flatMap visible := by
        refine congrArg List.flatten (List.map_congr_left fun line hline => ?_)
        exact visible_dedentLine fun hblank => sharedIndent_le hline hblank
    _ = visible content := by rw [visible_innerLines, Text.visible_rows]

/-- **Indenting keeps the visible part.** -/
theorem visible_indentBy {linePrefix : Text} (h : linePrefix.all isIndent = true) (content : Text) :
    visible (indentBy linePrefix content) = visible content := by
  rw [indentBy, Text.visible_joinWith (by decide), List.flatMap_map, ← Text.visible_splitOn content]
  refine congrArg List.flatten (List.map_congr_left fun line _ => ?_)
  by_cases hblank : Text.isBlankText line = true
  · rw [if_pos hblank, Text.visible_of_isBlankText hblank, Text.visible_nil]
  · rw [if_neg hblank, Text.visible_append, Text.visible_of_all_isIndent h, List.nil_append]

/-! ### New members -/

theorem visible_memberBlock {indent : Text} (h : indent.all isIndent = true) (content : Text)
    (eol : LineBreak) : visible (memberBlock content indent eol) = visible content := by
  rw [memberBlock, Text.visible_withBreaks, visible_indentBy h, visible_dedent]

/-- What is added at the end of a text is visible behind all that was. -/
theorem visible_appendToEnd (t content : Text) :
    visible (appendToEnd t content) = visible t ++ visible content := by
  have hbreak : ∀ c, isBreak c = true → isBlank c = true := fun _ => isBlank_of_isBreak
  have hbase : visible (Text.trimEndWhile isBreak t) = visible t :=
    Text.visible_trimEndWhile hbreak t
  have haddition : visible (Text.withBreaks (LineBreak.ofText t)
      (Text.unifyBreaks (Text.trimEndWhile isBreak (content.dropWhile isBreak)))) =
        visible content := by
    rw [Text.visible_withBreaks, Text.visible_unifyBreaks, Text.visible_trimEndWhile hbreak,
      Text.visible_dropWhile hbreak]
  rw [appendToEnd]
  split
  · -- With nothing left of the text in front there is no gap either.
    rename_i hempty
    rw [hempty] at hbase
    simp [haddition, ← hbase]
  · simp [hbase, haddition]

end SyntaxEdit
