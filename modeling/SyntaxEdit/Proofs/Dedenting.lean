/-
Blocks without the indentation that their lines share.

Everything is read off the tidy lines of a block: its lines without white space at their ends and
without the blank lines around them.  Dedenting takes the same number of characters off each tidy
line, and it makes no difference how many of these had been taken off, or put in front, before.

* `tidyLines`, `IsTidy` — the tidy lines of a block; they are read back from their join;
* `dedent_eq` — a dedented block is made of tidy lines, all shortened by one width;
* `shortened_map_drop` — the width counts from where the lines start, wherever that is;
* `dedent_layoutIndependent` — so a block is dedented to the same text under any indentation, and
  new members do not depend on how their content was indented;
* `StandsFor` — a line of the dedented block in the place of one of the block;
* `dedent_strips_iff` — dedenting takes one and the same indentation off all lines exactly if there
  is a line whose indentation all of them start with.  The widths alone do not tell: a tab and a
  space are of one width.
-/
import SyntaxEdit.Edit.Basic
import SyntaxEdit.Proofs.IndentedLines
import SyntaxEdit.Proofs.NewMembers

namespace SyntaxEdit

open Text (isBlankText trimEnd splitOn joinWith rows)

variable {line : Text} {lines : List Text} {k : Nat}

/-! ### Tidy lines -/

/-- The lines of a block without white space at their ends and without the blank lines around
them. -/
def tidyLines (t : Text) : List Text :=
  innerLines ((splitOn '\n' t).map trimEnd)

/-- Whether some lines are whole lines, without white space at their ends and without blank lines
around them. -/
structure IsTidy (lines : List Text) : Prop where
  newline_not_mem : ∀ line ∈ lines, '\n' ∉ line
  trimEnd_eq : ∀ line ∈ lines, trimEnd line = line
  head_visible : ∀ line ∈ lines.head?, isBlankText line = false
  last_visible : ∀ line ∈ lines.getLast?, isBlankText line = false

theorem isTidy_tidyLines (t : Text) : IsTidy (tidyLines t) := by
  refine ⟨fun line hline => ?_, fun line hline => ?_,
    fun _ => not_isBlankText_of_mem_head?_innerLines,
    fun _ => not_isBlankText_of_mem_getLast?_innerLines⟩
  · obtain ⟨piece, hpiece, rfl⟩ := List.mem_map.1 (mem_of_mem_innerLines hline)
    intro hnewline
    exact Text.not_mem_of_mem_splitOn hpiece
      ((Text.trimEndWhile_isPrefix isBlank piece).subset hnewline)
  · obtain ⟨piece, -, rfl⟩ := List.mem_map.1 (mem_of_mem_innerLines hline)
    exact trimEnd_trimEnd piece

namespace IsTidy

/-- A blank line among tidy ones is empty. -/
theorem eq_nil_of_isBlankText (h : IsTidy lines) (hline : line ∈ lines)
    (hblank : isBlankText line = true) : line = [] := by
  rw [← h.trimEnd_eq line hline, trimEnd_eq_nil hblank]

/-- Tidy lines are read back from their join. -/
theorem tidyLines_joinWith (h : IsTidy lines) : tidyLines (joinWith ['\n'] lines) = lines := by
  by_cases hne : lines = []
  · subst hne
    rfl
  · have htrimmed : lines.map trimEnd = lines :=
      (List.map_congr_left h.trimEnd_eq).trans (List.map_id lines)
    rw [tidyLines, Text.splitOn_joinWith hne h.newline_not_mem, htrimmed,
      innerLines_eq_self h.head_visible h.last_visible]

/-- Tidy lines are all lines of their join. -/
theorem rows_joinWith (h : IsTidy lines) : rows (joinWith ['\n'] lines) = lines := by
  rcases List.eq_nil_or_concat lines with rfl | ⟨front, last, rfl⟩
  · rfl
  rw [List.concat_eq_append] at h ⊢
  have hlast : last ≠ [] := by
    rintro rfl
    have hvisible := h.last_visible [] (by simp)
    cases hvisible
  have hreturn : front.map Text.dropReturn = front := by
    refine (List.map_congr_left fun line hline => ?_).trans (List.map_id front)
    refine if_neg fun hcr => ?_
    rw [← h.trimEnd_eq line (List.mem_append_left _ hline)] at hcr
    have hvisible : isBlank '\r' = false := Text.not_of_mem_getLast?_trimEndWhile hcr
    cases hvisible
  rw [rows, Text.splitOn_joinWith (by simp) h.newline_not_mem]
  simp [hlast, hreturn]

/-- Tidy lines stay so when all are shortened within their indentation. -/
theorem map_drop (h : IsTidy lines) (hk : AreIndented k lines) : IsTidy (lines.map (·.drop k)) := by
  have hsame : ∀ line ∈ lines, isBlankText (line.drop k) = isBlankText line :=
    fun line hline => isBlankText_drop (hk line hline)
  refine ⟨?_, ?_, ?_, ?_⟩
  · intro line hline hnewline
    obtain ⟨whole, hwhole, rfl⟩ := List.mem_map.1 hline
    exact h.newline_not_mem whole hwhole (List.drop_subset _ _ hnewline)
  · intro line hline
    obtain ⟨whole, hwhole, rfl⟩ := List.mem_map.1 hline
    rw [trimEnd_drop (hk whole hwhole), h.trimEnd_eq whole hwhole]
  · intro line hline
    rw [List.head?_map] at hline
    obtain ⟨whole, hwhole, rfl⟩ := Option.map_eq_some_iff.1 hline
    rw [hsame whole (List.mem_of_mem_head? hwhole), h.head_visible whole hwhole]
  · intro line hline
    rw [List.getLast?_map] at hline
    obtain ⟨whole, hwhole, rfl⟩ := Option.map_eq_some_iff.1 hline
    rw [hsame whole (List.mem_of_mem_getLast? hwhole), h.last_visible whole hwhole]

end IsTidy

/-! ### What dedenting makes of tidy lines -/

/-- Lines without as many characters as the least indented one starts with. -/
def shortened (lines : List Text) : List Text :=
  lines.map (·.drop (sharedIndent lines))

/-- It makes no difference to shorten lines before. -/
theorem shortened_map_drop (h : IsTidy lines) (hk : AreIndented k lines) :
    shortened (lines.map (·.drop k)) = shortened lines := by
  rw [shortened, shortened, List.map_map]
  refine List.map_congr_left fun line hline => ?_
  show (line.drop k).drop (sharedIndent (lines.map (·.drop k))) = line.drop (sharedIndent lines)
  -- A tidy blank line is empty. Any other one loses later what it did not lose before.
  cases hblank : isBlankText line with
  | true => rw [h.eq_nil_of_isBlankText hline hblank, List.drop_nil, List.drop_nil, List.drop_nil]
  | false =>
    obtain ⟨least, hleast, hvisible, hwidth⟩ := exists_sharedIndent_eq hline hblank
    have hle : k ≤ sharedIndent lines := hwidth ▸ hk least hleast hvisible
    rw [sharedIndent_map_drop hline hblank hk, List.drop_drop, Nat.add_sub_cancel' hle]

/-- All lines of a block count for its tidy lines: where they differ, they are blank at the end. -/
theorem tidyLines_eq (t : Text) : tidyLines t = (innerLines (rows t)).map trimEnd := by
  obtain ⟨front, last, hpieces⟩ : ∃ front last, splitOn '\n' t = front ++ [last] := by
    obtain ⟨front, last, h⟩ := (List.eq_nil_or_concat _).resolve_left (Text.splitOn_ne_nil '\n' t)
    exact ⟨front, last, h.trans (List.concat_eq_append ..)⟩
  have hreturn : (front.map Text.dropReturn).map trimEnd = front.map trimEnd := by
    rw [List.map_map]
    exact List.map_congr_left fun line _ => trimEnd_dropReturn line
  rw [tidyLines, rows, hpieces, ← innerLines_map isBlankText_trimEnd]
  -- An empty piece at the end is no row, and no inner line either.
  by_cases hlast : last = []
  · subst hlast
    rw [List.map_append, List.map_singleton, innerLines_append_blank (by rfl)]
    simp [hreturn]
  · simp [hlast, hreturn]

/-- **A dedented block** is made of its tidy lines, all shortened by one width. -/
theorem dedent_eq (content : Text) :
    dedent content = joinWith ['\n'] (shortened (tidyLines content)) := by
  have hlines : (innerLines (rows content)).map
      (dedentLine (sharedIndent (innerLines (rows content)))) = shortened (tidyLines content) := by
    rw [tidyLines_eq, shortened, sharedIndent_map_trimEnd, List.map_map]
    exact List.map_congr_left fun line hline => dedentLine_eq (sharedIndent_le hline)
  rw [← hlines]
  rfl

theorem isTidy_shortened_tidyLines (content : Text) : IsTidy (shortened (tidyLines content)) :=
  (isTidy_tidyLines content).map_drop (areIndented_sharedIndent _)

theorem tidyLines_dedent (content : Text) :
    tidyLines (dedent content) = shortened (tidyLines content) := by
  rw [dedent_eq, (isTidy_shortened_tidyLines content).tidyLines_joinWith]

theorem rows_dedent (content : Text) : rows (dedent content) = shortened (tidyLines content) := by
  rw [dedent_eq, (isTidy_shortened_tidyLines content).rows_joinWith]

/-- A block whose tidy lines are those of another one, all shortened, is dedented to the same
text. -/
theorem dedent_eq_of_map_drop {content other : Text}
    (h : tidyLines other = (tidyLines content).map (·.drop k))
    (hk : AreIndented k (tidyLines content)) : dedent other = dedent content := by
  rw [dedent_eq, dedent_eq, h, shortened_map_drop (isTidy_tidyLines content) hk]

@[simp] theorem dedent_dedent (content : Text) : dedent (dedent content) = dedent content :=
  dedent_eq_of_map_drop (tidyLines_dedent content) (areIndented_sharedIndent _)

/-! ### Indenting and dedenting -/

section Indenting

variable {linePrefix : Text}

/-- A line that is not blank behind a prefix. -/
def indentLine (linePrefix line : Text) : Text :=
  if isBlankText line then [] else linePrefix ++ line

theorem isBlankText_indentLine (h : linePrefix.all isIndent = true) (line : Text) :
    isBlankText (indentLine linePrefix line) = isBlankText line := by
  rw [indentLine]
  split
  · rename_i hblank
    rw [hblank]
    rfl
  · exact isBlankText_append h line

theorem trimEnd_indentLine (linePrefix line : Text) :
    trimEnd (indentLine linePrefix line) = indentLine linePrefix (trimEnd line) := by
  rw [indentLine, indentLine, isBlankText_trimEnd]
  cases hblank : isBlankText line with
  | true => rfl
  | false => exact trimEnd_append hblank

theorem splitOn_indentBy (h : linePrefix.all isIndent = true) (content : Text) :
    splitOn '\n' (indentBy linePrefix content) =
      (splitOn '\n' content).map (indentLine linePrefix) := by
  refine Text.splitOn_joinWith (by simp [Text.splitOn_ne_nil]) fun line hline hnewline => ?_
  obtain ⟨piece, hpiece, rfl⟩ := List.mem_map.1 hline
  split at hnewline
  · cases hnewline
  · rcases List.mem_append.1 hnewline with hnewline | hnewline
    · exact absurd (List.all_eq_true.1 h _ hnewline) (by decide)
    · exact Text.not_mem_of_mem_splitOn hpiece hnewline

theorem tidyLines_indentBy (h : linePrefix.all isIndent = true) (content : Text) :
    tidyLines (indentBy linePrefix content) = (tidyLines content).map (indentLine linePrefix) := by
  have hcomm : trimEnd ∘ indentLine linePrefix = indentLine linePrefix ∘ trimEnd :=
    funext (trimEnd_indentLine linePrefix)
  rw [tidyLines, splitOn_indentBy h, List.map_map, hcomm, ← List.map_map,
    innerLines_map (isBlankText_indentLine h), tidyLines]

/-- **An indentation put in front of a block makes no difference** to the dedented block. -/
theorem dedent_indentBy (h : linePrefix.all isIndent = true) (content : Text) :
    dedent (indentBy linePrefix content) = dedent content := by
  have hwide : AreIndented linePrefix.length (tidyLines (indentBy linePrefix content)) := by
    rw [tidyLines_indentBy h]
    intro line hline hblank
    obtain ⟨whole, -, rfl⟩ := List.mem_map.1 hline
    rw [isBlankText_indentLine h] at hblank
    rw [indentLine, hblank, if_neg Bool.false_ne_true]
    exact length_le_indentWidth h (List.prefix_append _ _)
  have hback : tidyLines content =
      (tidyLines (indentBy linePrefix content)).map (·.drop linePrefix.length) := by
    rw [tidyLines_indentBy h, List.map_map]
    refine ((List.map_congr_left fun line hline => ?_).trans (List.map_id _)).symm
    show (indentLine linePrefix line).drop linePrefix.length = line
    rw [indentLine]
    split
    · rename_i hblank
      rw [(isTidy_tidyLines content).eq_nil_of_isBlankText hline hblank, List.drop_nil]
    · exact List.drop_left
  exact (dedent_eq_of_map_drop hback hwide).symm

end Indenting

/-! ### New members -/

/-- A new member depends on what its content is dedented to alone. -/
theorem textAfter_of_dedent_eq {content other : Text} (h : dedent other = dedent content)
    {parent : Text} (hparent : isBlankText parent = false) (t : SyntaxTree) :
    (Edit.append parent other).textAfter t = (Edit.append parent content).textAfter t ∧
      ∀ types, (Edit.insertBefore parent other types).textAfter t =
        (Edit.insertBefore parent content types).textAfter t := by
  -- The content enters an edit by its block alone.
  have hblock : ∀ indent eol, memberBlock other indent eol = memberBlock content indent eol := by
    intro indent eol
    rw [memberBlock, memberBlock, h]
  have happend : ∀ body, t.appendedTo body other = t.appendedTo body content := by
    intro body
    simp only [SyntaxTree.appendedTo, SyntaxTree.appendSplice, hblock]
  have hinsert : ∀ body anchor, t.insertSplice body anchor other =
      t.insertSplice body anchor content := by
    intro body anchor
    simp only [SyntaxTree.insertSplice, hblock]
  simp only [Edit.textAfter, SyntaxTree.appended, SyntaxTree.insertedBefore, hparent, happend,
    hinsert, Bool.false_eq_true, if_false, implies_true, and_self]

/-- **How a block was indented does not show.**  It is dedented to the same text behind any prefix
of spaces and tabs, and when it was dedented before; a dedented block comes back from behind any
prefix; and a new member of a body is the same for all of them. -/
theorem dedent_layoutIndependent {linePrefix : Text} (h : linePrefix.all isIndent = true)
    (content : Text) :
    dedent (indentBy linePrefix content) = dedent content ∧
      dedent (dedent content) = dedent content ∧
      dedent (indentBy linePrefix (dedent content)) = dedent content ∧
      ∀ (t : SyntaxTree) (parent : Text), isBlankText parent = false →
        ∀ other ∈ [indentBy linePrefix content, dedent content],
          (Edit.append parent other).textAfter t = (Edit.append parent content).textAfter t ∧
          ∀ types, (Edit.insertBefore parent other types).textAfter t =
            (Edit.insertBefore parent content types).textAfter t := by
  refine ⟨dedent_indentBy h content, dedent_dedent content, ?_, ?_⟩
  · rw [dedent_indentBy h, dedent_dedent]
  · intro t parent hparent other hother
    have hsame : dedent other = dedent content := by
      rcases List.mem_cons.1 hother with rfl | hother
      · exact dedent_indentBy h content
      · rw [List.mem_singleton.1 hother, dedent_dedent]
    exact textAfter_of_dedent_eq hsame hparent t

/-- A method whose lines are indented by blanks and tabs, with a blank line in front and carriage
returns. -/
def indentedMethod : Text :=
  "\n  m() \x7b\r\n \t\t n \r\n\t \x7d\n".toList

/-- Behind a tab and a space it is the same member of a class. -/
theorem dedent_layoutIndependent_indentedMethod :
    "\t ".toList.all isIndent = true ∧
      dedent (indentBy "\t ".toList indentedMethod) = "m() \x7b\n\t n\n\x7d".toList ∧
      dedent "m() \x7b\n\t n\n\x7d".toList = "m() \x7b\n\t n\n\x7d".toList ∧
      dedent (indentBy "\t ".toList "m() \x7b\n\t n\n\x7d".toList) =
        "m() \x7b\n\t n\n\x7d".toList ∧
      (Edit.append "program[0]/class_declaration[0]".toList
        (indentBy "\t ".toList indentedMethod)).textAfter (SyntaxTree.ofOneClass "\n".toList) =
        .ok "class É \x7b\n    m() \x7b\n    \t n\n    \x7d\n\x7d".toList := by
  obtain ⟨hindent, hdedent, hback, hmember⟩ :=
    dedent_layoutIndependent (show "\t ".toList.all isIndent = true by decide) indentedMethod
  have hblock : dedent indentedMethod = "m() \x7b\n\t n\n\x7d".toList := by decide +kernel
  rw [hblock] at hindent hdedent hback
  refine ⟨by decide, hindent, hdedent, hback, ?_⟩
  rw [(hmember _ _ (by decide) _ List.mem_cons_self).1]
  have hbody := SyntaxTree.targetBody_ofOneClass "\n".toList (by decide +kernel)
  simp only [Edit.textAfter, SyntaxTree.appended, hbody]
  decide +kernel

/-! ### The indentation taken off -/

section Stripping

variable {content dedented : Text}

/-- The number of blank lines that a content starts with. -/
def leadingBlanks (content : Text) : Nat :=
  ((rows content).takeWhile isBlankText).length

/-- Whether a line of the dedented content stands in the place of a line of the content, counted
from the first line that is not blank. -/
def StandsFor (content line dedented : Text) : Prop :=
  ∃ n, (rows content)[leadingBlanks content + n]? = some line ∧
    (rows (dedent content))[n]? = some dedented

/-- Whether some line that is not blank has an indentation that all such lines start with. -/
def HasCommonIndent (lines : List Text) : Prop :=
  ∃ least ∈ lines, isBlankText least = false ∧
    ∀ line ∈ lines, isBlankText line = false → least.takeWhile isIndent <+: line

theorem rows_dedent_eq (content : Text) :
    rows (dedent content) =
      (innerLines (rows content)).map fun line =>
        (trimEnd line).drop (sharedIndent (rows content)) := by
  rw [rows_dedent, tidyLines_eq, shortened, sharedIndent_map_trimEnd, sharedIndent_innerLines,
    List.map_map]
  rfl

theorem StandsFor.mem_rows (h : StandsFor content line dedented) : line ∈ rows content := by
  obtain ⟨n, hline, -⟩ := h
  exact List.mem_of_getElem? hline

/-- In the place of a line stands what is left of that line. -/
theorem StandsFor.eq_drop (h : StandsFor content line dedented) :
    dedented = (trimEnd line).drop (sharedIndent (rows content)) := by
  obtain ⟨n, hline, hdedented⟩ := h
  rw [rows_dedent_eq, List.getElem?_map, Option.map_eq_some_iff] at hdedented
  obtain ⟨kept, hkept, rfl⟩ := hdedented
  rw [leadingBlanks, getElem?_innerLines (List.getElem?_eq_some_iff.1 hkept).1, hkept] at hline
  rw [Option.some.inj hline]

theorem exists_standsFor (hline : line ∈ rows content) (hblank : isBlankText line = false) :
    ∃ dedented, StandsFor content line dedented := by
  obtain ⟨n, hn⟩ := List.getElem?_of_mem (mem_innerLines hline hblank)
  refine ⟨(trimEnd line).drop (sharedIndent (rows content)), n, ?_, ?_⟩
  · rw [leadingBlanks, getElem?_innerLines (List.getElem?_eq_some_iff.1 hn).1, hn]
  · rw [rows_dedent_eq, List.getElem?_map, hn]
    rfl

theorem exists_visible_row (h : isBlankText content = false) :
    ∃ line ∈ rows content, isBlankText line = false := by
  by_contra hnone
  have hall : ∀ line ∈ rows content, isBlankText line = true := by
    simpa using hnone
  have hvisible : Text.visible content = [] := by
    rw [← Text.visible_rows, flatMap_visible_of_isBlankText hall]
  rw [isBlankText_iff.2 hvisible] at h
  cases h

/-- Every line that is not blank loses an indentation of the width that all share. -/
theorem StandsFor.exists_eq_append (h : StandsFor content line dedented)
    (hblank : isBlankText line = false) :
    ∃ w : Text, w.length = sharedIndent (rows content) ∧ w.all isIndent = true ∧
      trimEnd line = w ++ dedented := by
  have hwidth : sharedIndent (rows content) ≤ indentWidth (trimEnd line) := by
    rw [indentWidth_trimEnd hblank]
    exact sharedIndent_le h.mem_rows hblank
  obtain ⟨w, rest, htrimmed, hindent, hlength⟩ := exists_eq_of_le_indentWidth hwidth
  refine ⟨w, hlength, hindent, ?_⟩
  rw [h.eq_drop, htrimmed, ← hlength, List.drop_left]

/-- **What dedenting takes off.**  Every line that is not blank has its place in the dedented block,
and loses spaces and tabs of one width there.  These are the same ones on all lines exactly if some
line has an indentation that all of them start with. -/
theorem dedent_strips_iff {content : Text} (h : isBlankText content = false) :
    (∀ line ∈ rows content, isBlankText line = false →
        ∃ dedented, StandsFor content line dedented) ∧
      (∀ line dedented, StandsFor content line dedented → isBlankText line = false →
        ∃ w : Text, w.length = sharedIndent (rows content) ∧ w.all isIndent = true ∧
          trimEnd line = w ++ dedented) ∧
      ((∃ w : Text, w.all isIndent = true ∧ ∀ line dedented, StandsFor content line dedented →
          isBlankText line = false → trimEnd line = w ++ dedented) ↔
        HasCommonIndent (rows content)) := by
  refine ⟨fun line hline hblank => exists_standsFor hline hblank,
    fun line dedented hplace hblank => hplace.exists_eq_append hblank, ?_, ?_⟩
  · rintro ⟨w, -, hw⟩
    have hstart : ∀ line ∈ rows content, isBlankText line = false → w <+: line := by
      intro line hline hblank
      obtain ⟨dedented, hplace⟩ := exists_standsFor hline hblank
      refine List.IsPrefix.trans ⟨dedented, (hw line dedented hplace hblank).symm⟩ ?_
      exact Text.trimEndWhile_isPrefix isBlank line
    -- The least indented line loses all of its indentation.
    obtain ⟨some, hsome, hblankSome⟩ := exists_visible_row h
    obtain ⟨least, hleast, hblank, hwidth⟩ := exists_sharedIndent_eq hsome hblankSome
    obtain ⟨dedented, hplace⟩ := exists_standsFor hleast hblank
    obtain ⟨w', hlength, -, hlost⟩ := hplace.exists_eq_append hblank
    have hw' : w = w' :=
      List.append_cancel_right ((hw least dedented hplace hblank).symm.trans hlost)
    have hall : least.takeWhile isIndent = w :=
      takeWhile_isIndent_eq (hstart least hleast hblank) (by rw [hw', hlength, hwidth])
    exact ⟨least, hleast, hblank, fun line hline hblank => hall ▸ hstart line hline hblank⟩
  · rintro ⟨least, hleast, hblankLeast, hstart⟩
    have hlength : (least.takeWhile isIndent).length = sharedIndent (rows content) := by
      obtain ⟨shortest, hshortest, hblank, hwidth⟩ := exists_sharedIndent_eq hleast hblankLeast
      refine Nat.le_antisymm ?_ (sharedIndent_le hleast hblankLeast)
      rw [← hwidth]
      exact length_le_indentWidth List.all_takeWhile (hstart shortest hshortest hblank)
    refine ⟨least.takeWhile isIndent, List.all_takeWhile, fun line dedented hplace hblank => ?_⟩
    obtain ⟨w, hw, -, hlost⟩ := hplace.exists_eq_append hblank
    have hfront : w <+: line :=
      List.IsPrefix.trans ⟨dedented, hlost.symm⟩ (Text.trimEndWhile_isPrefix isBlank line)
    have hsame : least.takeWhile isIndent <+: w :=
      List.prefix_of_prefix_length_le (hstart line hplace.mem_rows hblank) hfront
        (Nat.le_of_eq (hlength.trans hw.symm))
    rw [hsame.eq_of_length (hlength.trans hw.symm), hlost]

/-- Two lines that start with a tab and a blank lose these, though one of them has a second
blank. -/
theorem dedent_strips_tabThenBlanks :
    isBlankText "\n\t  a\n\n\t b \n".toList = false ∧
      ∃ w : Text, w.all isIndent = true ∧
        ∀ line dedented, StandsFor "\n\t  a\n\n\t b \n".toList line dedented →
          isBlankText line = false → trimEnd line = w ++ dedented := by
  have hcommon : HasCommonIndent (rows "\n\t  a\n\n\t b \n".toList) :=
    ⟨"\t b ".toList, by decide, by decide, by decide⟩
  exact ⟨by decide, (dedent_strips_iff (by decide)).2.2.2 hcommon⟩

/-- Of a line with a tab and one with two blanks, each loses one character, and these differ. -/
theorem dedent_strips_tabOrBlank :
    isBlankText "\tm() \x7b\x7d\n  n() \x7b\x7d".toList = false ∧
      ¬∃ w : Text, w.all isIndent = true ∧
        ∀ line dedented, StandsFor "\tm() \x7b\x7d\n  n() \x7b\x7d".toList line dedented →
          isBlankText line = false → trimEnd line = w ++ dedented := by
  refine ⟨by decide, ?_⟩
  rintro ⟨w, -, hw⟩
  have htab : "\tm() \x7b\x7d".toList = w ++ "m() \x7b\x7d".toList :=
    hw "\tm() \x7b\x7d".toList _ ⟨0, by decide, by decide⟩ (by decide)
  have hblank : "  n() \x7b\x7d".toList = w ++ " n() \x7b\x7d".toList :=
    hw "  n() \x7b\x7d".toList _ ⟨1, by decide, by decide⟩ (by decide)
  have hw_tab : ['\t'] = w := List.append_cancel_right htab
  have hw_blank : [' '] = w := List.append_cancel_right hblank
  rw [← hw_tab] at hw_blank
  cases hw_blank

end Stripping

end SyntaxEdit
