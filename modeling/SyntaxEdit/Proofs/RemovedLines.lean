/-
The lines of a text from which a node is removed.

A removal works on offsets: it takes out a range, looks for the line that is left at its start, and
takes that line out with one of the breaks at it if it is blank.  In terms of lines, those before
and after stay as they are, and in their order.

* `Text.exists_lines_around` — a cut in a text falls into one of its lines;
* `aroundLine_lines`, `dropBlankLine_lines` — a line is taken out of a text with one break;
* `SyntaxTree.IsRemoval` — what a node and its separator are taken out of;
* `deleted_eq_joinWith_lines` — a text without a node is the lines around the node, joined, with the
  line at the node between them unless that line is blank.
-/
import SyntaxEdit.Edit.Basic
import SyntaxEdit.Proofs.Removal
import SyntaxEdit.Proofs.Splitting
import SyntaxEdit.Proofs.Targets
import SyntaxEdit.Proofs.VisibleText

namespace SyntaxEdit

open Text (byteLength IsLine isBlankText joinWith splitOn visible)

/-! ### The lines around a cut -/

/-- A cut in a text falls into a line, with whole lines before it and after it. -/
theorem Text.exists_lines_around (front back : Text) :
    ∃ (before : List Text) (left right : Text) (after : List Text),
      front = before.flatMap (· ++ ['\n']) ++ left ∧
      back = right ++ after.flatMap (['\n'] ++ ·) ∧ (∀ line ∈ before, '\n' ∉ line) ∧
      '\n' ∉ left ++ right ∧ ∀ line ∈ after, '\n' ∉ line := by
  -- The last line in front and the first one behind are cut from one line.
  obtain ⟨before, left, hfront⟩ :=
    (List.eq_nil_or_concat (splitOn '\n' front)).resolve_left (splitOn_ne_nil '\n' front)
  obtain ⟨right, after, hback⟩ := List.exists_cons_of_ne_nil (splitOn_ne_nil '\n' back)
  rw [List.concat_eq_append] at hfront
  have hbefore : ∀ line ∈ before ++ [left], '\n' ∉ line := fun line hline =>
    not_mem_of_mem_splitOn (hfront ▸ hline)
  have hafter : ∀ line ∈ right :: after, '\n' ∉ line := fun line hline =>
    not_mem_of_mem_splitOn (hback ▸ hline)
  refine ⟨before, left, right, after, ?_, ?_,
    fun line hline => hbefore line (List.mem_append_left _ hline), ?_,
    fun line hline => hafter line (List.mem_cons_of_mem _ hline)⟩
  · rw [← joinWith_splitOn '\n' front, hfront, joinWith_append before (by simp), joinWith]
  · rw [← joinWith_splitOn '\n' back, hback, joinWith_cons]
  · rw [List.mem_append, not_or]
    exact ⟨hbefore left (by simp), hafter right List.mem_cons_self⟩

variable {before after : List Text} {left right line : Text}

theorem isLine_of_lines (h : '\n' ∉ line) :
    IsLine (before.flatMap (· ++ ['\n'])) line (after.flatMap (['\n'] ++ ·)) := by
  refine ⟨fun c hc => ?_, h, fun c hc => ?_⟩
  · rcases List.eq_nil_or_concat before with rfl | ⟨lines, last, rfl⟩
    · cases hc
    · simpa using hc.symm
  · cases after with
    | nil => cases hc
    | cons next others => simpa using hc.symm

/-- A line is taken out of a text with one break, whether it is the first, the last or the only
one. -/
theorem aroundLine_lines (before after : List Text) :
    aroundLine (before.flatMap (· ++ ['\n'])) (after.flatMap (['\n'] ++ ·)) =
      joinWith ['\n'] (before ++ after) := by
  cases after with
  | nil =>
    rw [List.flatMap_nil, aroundLine, if_pos rfl, List.append_nil]
    by_cases h : before = []
    · subst h
      rfl
    · rw [Text.flatMap_append_separator h, List.dropLast_concat]
  | cons next others =>
    rw [Text.joinWith_append before (by simp), Text.joinWith_cons, List.flatMap_cons,
      List.append_assoc, List.singleton_append, aroundLine, if_neg (by simp), List.tail_cons]

theorem joinWith_lines_cut (before after : List Text) (left right : Text) :
    joinWith ['\n'] (before ++ [left ++ right] ++ after) =
      before.flatMap (· ++ ['\n']) ++ left ++ (right ++ after.flatMap (['\n'] ++ ·)) := by
  rw [joinWith_lines]
  simp only [List.append_assoc]

/-- **A blank line is dropped from between the lines around it**, and all other lines stay. -/
theorem dropBlankLine_lines (h : '\n' ∉ left ++ right) :
    dropBlankLine (before.flatMap (· ++ ['\n']) ++ left ++ (right ++ after.flatMap (['\n'] ++ ·)))
        (byteLength (before.flatMap (· ++ ['\n']) ++ left)) =
      .ok (joinWith ['\n'] (if isBlankText (left ++ right) then before ++ after
        else before ++ [left ++ right] ++ after)) := by
  rw [dropBlankLine_eq (isLine_of_lines h), aroundLine_lines, ← joinWith_lines_cut,
    apply_ite (joinWith ['\n'])]

/-- Nothing visible is lost by that. -/
theorem visible_joinWith_lines (before after : List Text) (line : Text) :
    visible (joinWith ['\n'] (if isBlankText line then before ++ after
      else before ++ [line] ++ after)) = visible (joinWith ['\n'] (before ++ [line] ++ after)) := by
  have hbreak : visible ['\n'] = [] := rfl
  split
  · rename_i hblank
    simp [Text.visible_joinWith hbreak, Text.visible_of_isBlankText hblank]
  · rfl

/-! ### Nodes -/

namespace SyntaxTree

/-- Whether a source is made up of what stands before a node, the node with its separator, and what
stands after them. -/
structure IsRemoval (t : SyntaxTree) (n : Located) (front removed back : Text) : Prop where
  source_eq : t.source = front ++ removed ++ back
  start_eq : byteLength front = n.start
  stop_of_separator : ∀ separator, t.IsSeparatorOf separator n →
    byteLength (front ++ removed) = separator.stop
  stop_of_no_separator : (∀ separator, ¬ t.IsSeparatorOf separator n) →
    byteLength (front ++ removed) = n.stop

variable {t : SyntaxTree} {n : Located}

/-- A node is taken out with its separator, and then the line at its start if it is blank. -/
theorem exists_isRemoval (hslices : t.HasSlices) (hordered : t.HasOrderedSiblings)
    (hn : n ∈ t.nodes) :
    ∃ front removed back, t.IsRemoval n front removed back ∧
      t.textWithout n = dropBlankLine (front ++ back) (byteLength front) := by
  obtain ⟨front, removed, back, hsource, hstart, hstop, hremoval⟩ :=
    textWithout_eq hslices hordered hn
  refine ⟨front, removed, back, ⟨hsource, hstart, fun separator hseparator => ?_, fun hnone => ?_⟩,
    hremoval⟩
  · rw [hstop, separatorEnd?_eq_some_iff.2 ⟨separator, hseparator, rfl⟩, Option.getD_some]
  · have hseparator : t.separatorEnd? n = none := by
      refine Option.eq_none_iff_forall_ne_some.2 fun stop h => ?_
      obtain ⟨separator, hseparator, -⟩ := separatorEnd?_eq_some_iff.1 h
      exact hnone separator hseparator
    rw [hstop, hseparator, Option.getD_none]

/-- **Removing a node touches only the lines of the node.**  Without the node and its separator, the
source is split into the lines before the node, the line on which the node started, and the lines
after it.  The lines before and after are those of the source, and stay; the line between them stays
unless it is blank.  So nothing else that is visible is lost, however the node is addressed. -/
theorem deleted_eq_joinWith_lines (hslices : t.HasSlices) (hordered : t.HasOrderedSiblings)
    (hn : n ∈ t.nodes) :
    ∃ front removed back, t.IsRemoval n front removed back ∧
      ∃ (before : List Text) (left right : Text) (after : List Text),
        front = before.flatMap (· ++ ['\n']) ++ left ∧
        splitOn '\n' (front ++ back) = before ++ [left ++ right] ++ after ∧
        splitOn '\n' t.source = before ++ splitOn '\n' (left ++ removed ++ right) ++ after ∧
        ∃ r, t.textWithout n = .ok r ∧
          r = joinWith ['\n'] (if isBlankText (left ++ right) then before ++ after
            else before ++ [left ++ right] ++ after) ∧
          visible r = visible front ++ visible back ∧
          ∀ how path, t.target how path = .ok n → (Edit.delete how path).textAfter t = .ok r := by
  obtain ⟨front, removed, back, hremoved, hremoval⟩ := exists_isRemoval hslices hordered hn
  obtain ⟨before, left, right, after, rfl, rfl, hbefore, hline, hafter⟩ :=
    Text.exists_lines_around front back
  refine ⟨_, removed, _, hremoved, before, left, right, after, rfl, ?_, ?_, ?_⟩
  · -- Without the node the two parts of its line are one line.
    rw [← joinWith_lines_cut, joinWith_lines, Text.splitOn_between hbefore hafter,
      Text.splitOn_of_not_mem hline]
  · -- The lines around the node are the same ones in the source, where the node may take several.
    have hsource : t.source = before.flatMap (· ++ ['\n']) ++ (left ++ removed ++ right) ++
        after.flatMap (['\n'] ++ ·) := by
      rw [hremoved.source_eq]
      simp only [List.append_assoc]
    rw [hsource, Text.splitOn_between hbefore hafter]
  · rw [dropBlankLine_lines hline] at hremoval
    refine ⟨_, hremoval, rfl, ?_, fun how path htarget => ?_⟩
    · rw [visible_joinWith_lines, joinWith_lines_cut, Text.visible_append]
    · simp only [Edit.textAfter, deleted, htarget, bind, Except.bind, hremoval, inText]

/-- A tree of a call over two lines with a comma behind it, in brackets. -/
def ofCallOverTwoLines : SyntaxTree where
  root :=
    .mk ⟨"program", true, false, false, false, 0, 18, none⟩
      [.mk ⟨"[", false, false, false, false, 0, 1, none⟩ [],
        .mk ⟨"call", true, false, false, false, 4, 10, none⟩ [],
        .mk ⟨",", false, false, false, false, 10, 11, none⟩ [],
        .mk ⟨"identifier", true, false, false, false, 14, 16, none⟩ [],
        .mk ⟨"]", false, false, false, false, 17, 18, none⟩ []]
  broken := false
  source := "[\n  f(\n  ),\n  É\n]".toList
  pack := LanguagePack.plain "javascript" .javascript

/-- The call in that tree. -/
def callOverTwoLines : Located :=
  ⟨[1], .mk ⟨"call", true, false, false, false, 4, 10, none⟩ []⟩

/-- The call is removed with its comma and its lines, and the other lines stay. -/
theorem deleted_eq_joinWith_lines_callOverTwoLines :
    ∃ front removed back, ofCallOverTwoLines.IsRemoval callOverTwoLines front removed back ∧
      removed = "f(\n  ),".toList ∧
      ∃ r, (Edit.delete .structural "program[0]/call[1]".toList).textAfter ofCallOverTwoLines =
          .ok r ∧
        visible r = visible front ++ visible back ∧ r = "[\n  É\n]".toList := by
  have htarget : ofCallOverTwoLines.target .structural "program[0]/call[1]".toList =
      .ok callOverTwoLines := rfl
  have hresult : (Edit.delete .structural "program[0]/call[1]".toList).textAfter
      ofCallOverTwoLines = .ok "[\n  É\n]".toList := rfl
  have hseparator : ofCallOverTwoLines.IsSeparatorOf
      ⟨[2], .mk ⟨",", false, false, false, false, 10, 11, none⟩ []⟩ callOverTwoLines :=
    ⟨rfl, rfl, .inr rfl, [], rfl, by simp⟩
  obtain ⟨front, removed, back, hremoval, -, -, -, -, -, -, -, r, -, -, hvisible, hdeleted⟩ :=
    deleted_eq_joinWith_lines (t := ofCallOverTwoLines) (by decide) (by decide)
      (mem_nodes_of_target htarget)
  refine ⟨front, removed, back, hremoval, ?_, r, hdeleted _ _ htarget, hvisible, ?_⟩
  · have hsource : ofCallOverTwoLines.source =
        "[\n  ".toList ++ "f(\n  ),".toList ++ "\n  É\n]".toList := rfl
    have hparts := hremoval.source_eq.symm.trans hsource
    obtain ⟨hleft, -⟩ := Text.append_inj_of_byteLength hparts
      (hremoval.stop_of_separator _ hseparator)
    exact (Text.append_inj_of_byteLength hleft hremoval.start_eq).2
  · rw [hdeleted _ _ htarget] at hresult
    exact Except.ok.inj hresult

end SyntaxTree

end SyntaxEdit
