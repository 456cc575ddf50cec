/-
Lines with their indentation, and what they share of it.

The indentation of a line are the spaces and tabs that it starts with.  A line can be shortened
within its indentation, and trimmed at its end, in either order, and neither makes it blank.

* `trimEnd_append`, `indentWidth_trimEnd` — the end of a line is trimmed up to what is visible, so
  its indentation stays;
* `exists_eq_of_le_indentWidth`, `trimEnd_drop` — a line that is shortened within its indentation;
* `exists_eq_innerLines`, `innerLines_map` — the lines between blank ones;
* `exists_sharedIndent_eq`, `sharedIndent_map_drop` — the least indentation is that of some line,
  and lines that all lose a part of theirs share so much less.
-/
import Mathlib.Data.List.TakeWhile
import SyntaxEdit.Proofs.VisibleText

namespace SyntaxEdit

open Text (isBlankText trimEnd trimEndWhile visible)

variable {line : Text} {lines : List Text} {k : Nat}

/-! ### White space at the end of a line -/

theorem isBlankText_iff : isBlankText line = true ↔ visible line = [] := by
  rw [isBlankText, List.all_eq_true, Text.visible_eq_nil_iff]

@[simp] theorem isBlankText_trimEnd (line : Text) :
    isBlankText (trimEnd line) = isBlankText line := by
  rw [Bool.eq_iff_iff, isBlankText_iff, isBlankText_iff, trimEnd,
    Text.visible_trimEndWhile fun _ h => h]

@[simp] theorem trimEnd_trimEnd (line : Text) : trimEnd (trimEnd line) = trimEnd line :=
  Text.trimEndWhile_eq_self fun _ => Text.not_of_mem_getLast?_trimEndWhile

theorem trimEnd_eq_nil (h : isBlankText line = true) : trimEnd line = [] := by
  rw [trimEnd, trimEndWhile,
    List.dropWhile_eq_nil_iff.2 fun c hc => List.all_eq_true.1 h c (List.mem_reverse.1 hc),
    List.reverse_nil]

/-- What is visible stops the trimming, and all in front of it stays. -/
theorem trimEnd_append {front back : Text} (h : isBlankText back = false) :
    trimEnd (front ++ back) = front ++ trimEnd back := by
  have hback : ¬(back.reverse.dropWhile isBlank).isEmpty = true := by
    rw [List.isEmpty_iff, List.dropWhile_eq_nil_iff]
    intro hall
    have hblank : isBlankText back = true :=
      List.all_eq_true.2 fun c hc => hall c (List.mem_reverse.2 hc)
    simp [hblank] at h
  rw [trimEnd, trimEnd, trimEndWhile, trimEndWhile, List.reverse_append, List.dropWhile_append,
    if_neg hback, List.reverse_append, List.reverse_reverse]

/-- The carriage return that a line may end with is white space. -/
theorem trimEnd_dropReturn (line : Text) : trimEnd (Text.dropReturn line) = trimEnd line := by
  rw [Text.dropReturn]
  split
  · rename_i hlast
    obtain ⟨front, rfl⟩ := List.getLast?_eq_some_iff.1 hlast
    rw [List.dropLast_concat, trimEnd, trimEnd, trimEndWhile, trimEndWhile, List.reverse_append,
      List.reverse_singleton, List.singleton_append, List.dropWhile_cons_of_pos (by decide)]
  · rfl

/-! ### Indentation at the start of a line -/

theorem isBlankText_append {front : Text} (h : front.all isIndent = true) (back : Text) :
    isBlankText (front ++ back) = isBlankText back := by
  rw [Bool.eq_iff_iff, isBlankText_iff, isBlankText_iff, Text.visible_append,
    Text.visible_of_all_isIndent h, List.nil_append]

theorem indentWidth_append {front : Text} (h : front.all isIndent = true) (back : Text) :
    indentWidth (front ++ back) = front.length + indentWidth back := by
  rw [indentWidth, indentWidth, List.takeWhile_append_of_pos (List.all_eq_true.1 h),
    List.length_append]

theorem length_le_indentWidth {front : Text} (h : front.all isIndent = true)
    (hfront : front <+: line) : front.length ≤ indentWidth line := by
  obtain ⟨back, rfl⟩ := hfront
  rw [indentWidth_append h]
  exact Nat.le_add_right _ _

/-- A front part as wide as the indentation of a line is its indentation. -/
theorem takeWhile_isIndent_eq {front : Text} (hfront : front <+: line)
    (hlength : front.length = indentWidth line) : line.takeWhile isIndent = front := by
  have hindent : front <+: line.takeWhile isIndent :=
    List.prefix_of_prefix_length_le hfront (List.takeWhile_prefix _) (Nat.le_of_eq hlength)
  exact (hindent.eq_of_length hlength).symm

/-- A line is cut within its indentation into spaces and tabs and the rest. -/
theorem exists_eq_of_le_indentWidth (hk : k ≤ indentWidth line) :
    ∃ front back, line = front ++ back ∧ front.all isIndent = true ∧ front.length = k := by
  have hfront : line.take k <+: line.takeWhile isIndent :=
    List.prefix_of_prefix_length_le (List.take_prefix _ _) (List.takeWhile_prefix _)
      (Nat.le_trans (List.length_take_le _ _) hk)
  refine ⟨line.take k, line.drop k, (List.take_append_drop k line).symm, ?_, ?_⟩
  · exact List.all_eq_true.2 fun c hc =>
      List.all_eq_true.1 List.all_takeWhile c (hfront.subset hc)
  · exact List.length_take_of_le (Nat.le_trans hk (List.takeWhile_prefix _).length_le)

theorem indentWidth_trimEnd (hblank : isBlankText line = false) :
    indentWidth (trimEnd line) = indentWidth line := by
  have hline : trimEnd line <+: line := Text.trimEndWhile_isPrefix isBlank line
  have hindent : line.takeWhile isIndent <+: trimEnd line := by
    -- What is behind the indentation is not blank, so trimming stops there.
    have hrest : isBlankText (line.dropWhile isIndent) = false := by
      rw [← isBlankText_append (List.all_takeWhile (l := line)), List.takeWhile_append_dropWhile,
        hblank]
    refine ⟨trimEnd (line.dropWhile isIndent), ?_⟩
    rw [← trimEnd_append hrest, List.takeWhile_append_dropWhile]
  exact Nat.le_antisymm
    (length_le_indentWidth List.all_takeWhile ((List.takeWhile_prefix _).trans hline))
    (length_le_indentWidth List.all_takeWhile hindent)

/-- A line shortened within its indentation is blank only if it was. -/
theorem isBlankText_drop (hk : isBlankText line = false → k ≤ indentWidth line) :
    isBlankText (line.drop k) = isBlankText line := by
  cases hblank : isBlankText line with
  | true =>
    exact List.all_eq_true.2 fun c hc => List.all_eq_true.1 hblank c (List.drop_subset k _ hc)
  | false =>
    obtain ⟨front, back, rfl, hfront, rfl⟩ := exists_eq_of_le_indentWidth (hk hblank)
    rw [List.drop_left, ← isBlankText_append hfront, hblank]

theorem indentWidth_drop (hk : k ≤ indentWidth line) :
    indentWidth (line.drop k) = indentWidth line - k := by
  obtain ⟨front, back, rfl, hfront, rfl⟩ := exists_eq_of_le_indentWidth hk
  rw [List.drop_left, indentWidth_append hfront, Nat.add_sub_cancel_left]

theorem trimEnd_drop (hk : isBlankText line = false → k ≤ indentWidth line) :
    trimEnd (line.drop k) = (trimEnd line).drop k := by
  cases hblank : isBlankText line with
  | true =>
    rw [trimEnd_eq_nil (by rw [isBlankText_drop hk, hblank]), trimEnd_eq_nil hblank, List.drop_nil]
  | false =>
    obtain ⟨front, back, rfl, hfront, rfl⟩ := exists_eq_of_le_indentWidth (hk hblank)
    rw [isBlankText_append hfront] at hblank
    rw [List.drop_left, trimEnd_append hblank, List.drop_left]

theorem dedentLine_eq (hk : isBlankText line = false → k ≤ indentWidth line) :
    dedentLine k line = (trimEnd line).drop k := by
  rw [dedentLine]
  split
  · rename_i hblank
    rw [trimEnd_eq_nil hblank, List.drop_nil]
  · exact trimEnd_drop hk

/-! ### The lines between blank ones -/

theorem mem_of_mem_innerLines (h : line ∈ innerLines lines) : line ∈ lines :=
  List.dropWhile_subset _ (List.mem_reverse.1 (List.dropWhile_subset _ (List.mem_reverse.1 h)))

/-- Only blank lines go in front and behind. -/
theorem exists_dropWhile_eq (lines : List Text) :
    ∃ after, lines.dropWhile isBlankText = innerLines lines ++ after ∧
      ∀ line ∈ after, isBlankText line = true := by
  refine ⟨((lines.dropWhile isBlankText).reverse.takeWhile isBlankText).reverse, ?_, ?_⟩
  · rw [innerLines, ← List.reverse_append, List.takeWhile_append_dropWhile, List.reverse_reverse]
  · intro line hline
    exact List.all_eq_true.1 List.all_takeWhile line (List.mem_reverse.1 hline)

theorem exists_eq_innerLines (lines : List Text) :
    ∃ after, lines = lines.takeWhile isBlankText ++ innerLines lines ++ after ∧
      ∀ line ∈ after, isBlankText line = true := by
  obtain ⟨after, hafter, hblank⟩ := exists_dropWhile_eq lines
  refine ⟨after, ?_, hblank⟩
  rw [List.append_assoc, ← hafter, List.takeWhile_append_dropWhile]

theorem mem_innerLines (h : line ∈ lines) (hblank : isBlankText line = false) :
    line ∈ innerLines lines := by
  obtain ⟨after, hlines, hafter⟩ := exists_eq_innerLines lines
  rw [hlines, List.mem_append, List.mem_append] at h
  rcases h with (hfront | hinner) | hback
  · have hvisible := List.all_eq_true.1 List.all_takeWhile line hfront
    simp [hblank] at hvisible
  · exact hinner
  · simp [hafter line hback] at hblank

/-- The lines that are kept count from behind the blank ones. -/
theorem getElem?_innerLines {n : Nat} (h : n < (innerLines lines).length) :
    lines[(lines.takeWhile isBlankText).length + n]? = (innerLines lines)[n]? := by
  obtain ⟨after, hlines, -⟩ := exists_eq_innerLines lines
  calc lines[(lines.takeWhile isBlankText).length + n]?
      = (lines.takeWhile isBlankText ++ (innerLines lines ++ after))[
          (lines.takeWhile isBlankText).length + n]? := by rw [← List.append_assoc, ← hlines]
    _ = (innerLines lines ++ after)[n]? := by
        rw [List.getElem?_append_right (Nat.le_add_right _ _), Nat.add_sub_cancel_left]
    _ = (innerLines lines)[n]? := List.getElem?_append_left h

theorem innerLines_map {f : Text → Text} (h : ∀ line, isBlankText (f line) = isBlankText line)
    (lines : List Text) : innerLines (lines.map f) = (innerLines lines).map f := by
  have hblank : isBlankText ∘ f = isBlankText := funext h
  rw [innerLines, innerLines, List.dropWhile_map, hblank, ← List.map_reverse, List.dropWhile_map,
    hblank, List.map_reverse]

theorem innerLines_append_blank (h : isBlankText line = true) (lines : List Text) :
    innerLines (lines ++ [line]) = innerLines lines := by
  rw [innerLines, innerLines, List.dropWhile_append]
  split
  · rename_i hempty
    rw [List.isEmpty_iff.1 hempty, List.dropWhile_cons_of_pos h]
    rfl
  · rw [List.reverse_append, List.reverse_singleton, List.singleton_append,
      List.dropWhile_cons_of_pos h]

theorem not_isBlankText_of_mem_head?_innerLines (h : line ∈ (innerLines lines).head?) :
    isBlankText line = false := by
  obtain ⟨after, hafter, -⟩ := exists_dropWhile_eq lines
  refine Text.not_of_mem_head?_dropWhile (t := lines) ?_
  rw [hafter, Option.mem_def, List.head?_append, Option.mem_def.1 h]
  rfl

theorem not_isBlankText_of_mem_getLast?_innerLines (h : line ∈ (innerLines lines).getLast?) :
    isBlankText line = false := by
  rw [innerLines, List.getLast?_reverse] at h
  exact Text.not_of_mem_head?_dropWhile h

theorem innerLines_eq_self (hfirst : ∀ line ∈ lines.head?, isBlankText line = false)
    (hlast : ∀ line ∈ lines.getLast?, isBlankText line = false) : innerLines lines = lines := by
  rw [innerLines, Text.dropWhile_eq_self hfirst, Text.dropWhile_eq_self, List.reverse_reverse]
  rwa [List.head?_reverse]

/-! ### The width that lines share -/

/-- Whether no line that is not blank has less than some indentation. -/
def AreIndented (k : Nat) (lines : List Text) : Prop :=
  ∀ line ∈ lines, isBlankText line = false → k ≤ indentWidth line

theorem areIndented_sharedIndent (lines : List Text) : AreIndented (sharedIndent lines) lines :=
  fun _ => sharedIndent_le

theorem exists_sharedIndent_eq (hline : line ∈ lines) (hblank : isBlankText line = false) :
    ∃ least ∈ lines, isBlankText least = false ∧ indentWidth least = sharedIndent lines := by
  have hmem : indentWidth line ∈ (lines.filter (!isBlankText ·)).map indentWidth :=
    List.mem_map_of_mem (List.mem_filter.2 ⟨hline, by simp [hblank]⟩)
  obtain ⟨width, hwidth⟩ := Option.isSome_iff_exists.1 (List.isSome_min?_of_mem hmem)
  obtain ⟨least, hleast, hindent⟩ := List.mem_map.1 (List.min?_mem hwidth)
  obtain ⟨hmemLeast, hvisible⟩ := List.mem_filter.1 hleast
  refine ⟨least, hmemLeast, by simpa using hvisible, ?_⟩
  rw [hindent, sharedIndent, hwidth, Option.getD_some]

/-- Lines that all lose a part of their indentation share so much less. -/
theorem sharedIndent_map_drop (hline : line ∈ lines) (hblank : isBlankText line = false)
    (hk : AreIndented k lines) : sharedIndent (lines.map (·.drop k)) = sharedIndent lines - k := by
  have hsame : ∀ line ∈ lines, isBlankText (line.drop k) = isBlankText line :=
    fun line hline => isBlankText_drop (hk line hline)
  -- The line that is indented least before is so after, and the other way round.
  have hle : sharedIndent (lines.map (·.drop k)) ≤ sharedIndent lines - k := by
    obtain ⟨least, hleast, hvisible, hwidth⟩ := exists_sharedIndent_eq hline hblank
    rw [← hwidth, ← indentWidth_drop (hk least hleast hvisible)]
    exact sharedIndent_le (List.mem_map_of_mem hleast) ((hsame least hleast).trans hvisible)
  have hge : sharedIndent lines - k ≤ sharedIndent (lines.map (·.drop k)) := by
    obtain ⟨shortest, hshortest, hvisible, hwidth⟩ := exists_sharedIndent_eq
      (List.mem_map_of_mem hline) ((hsame line hline).trans hblank)
    obtain ⟨whole, hwhole, rfl⟩ := List.mem_map.1 hshortest
    rw [hsame whole hwhole] at hvisible
    rw [← hwidth, indentWidth_drop (hk whole hwhole hvisible)]
    exact Nat.sub_le_sub_right (sharedIndent_le hwhole hvisible) k
  exact Nat.le_antisymm hle hge

theorem sharedIndent_innerLines (lines : List Text) :
    sharedIndent (innerLines lines) = sharedIndent lines := by
  have hnone : ∀ blanks : List Text, (∀ line ∈ blanks, isBlankText line = true) →
      blanks.filter (!isBlankText ·) = [] := fun blanks hblanks =>
    List.filter_eq_nil_iff.2 fun line hline => by simp [hblanks line hline]
  obtain ⟨after, hlines, hafter⟩ := exists_eq_innerLines lines
  conv => rhs; rw [hlines]
  rw [sharedIndent, sharedIndent, List.filter_append, List.filter_append, hnone after hafter,
    hnone _ fun line hline => List.all_eq_true.1 List.all_takeWhile line hline, List.nil_append,
    List.append_nil]

theorem sharedIndent_map_trimEnd (lines : List Text) :
    sharedIndent (lines.map trimEnd) = sharedIndent lines := by
  have hblank : (fun line => !isBlankText line) ∘ trimEnd = fun line => !isBlankText line :=
    funext fun line => by simp
  rw [sharedIndent, sharedIndent, List.filter_map, hblank, List.map_map]
  refine congrArg (·.min?.getD 0) (List.map_congr_left fun line hline => ?_)
  exact indentWidth_trimEnd (by simpa using (List.mem_filter.1 hline).2)

end SyntaxEdit
