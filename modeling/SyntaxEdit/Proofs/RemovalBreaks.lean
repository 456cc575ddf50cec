/-
The line breaks of a text from which a node is removed.

* `SyntaxTree.EmptiesLastLine` — a node that leaves the last of several lines blank;
* `hasPairedBreaks_dropBlankLine_iff` — dropping a blank line keeps pairs of carriage return and
  newline together, except at the last line;
* `hasPairedBreaks_deleted_iff` — so does every removal of a node, however the node is addressed;
* `hasPairedBreaks_deleted_lastLine` — on the last line, a carriage return is left behind.
-/
import SyntaxEdit.Edit.Basic
import SyntaxEdit.Proofs.LineBreaks
import SyntaxEdit.Proofs.Removal
import SyntaxEdit.Proofs.Targets

namespace SyntaxEdit

open Text (byteLength IsLine hasPairedBreaks splitsPair)

/-! ### Blank lines -/

section Lines

variable {front left right rest : Text}

/-- The lines before a line, and what follows its line break, are paired texts if the whole is. -/
theorem hasPairedBreaks_around (h : IsLine front (left ++ right) rest)
    (hpaired : hasPairedBreaks (front ++ left ++ (right ++ rest)) = true) :
    hasPairedBreaks front = true ∧ hasPairedBreaks rest.tail = true := by
  -- A line starts behind a newline, so no cut falls between the two halves of a pair.
  have hfront : front.getLast? ≠ some '\r' := by
    intro hlast
    cases h.before _ hlast
  constructor
  · rw [List.append_assoc] at hpaired
    exact (Text.hasPairedBreaks_of_append hpaired fun hlast => absurd hlast hfront).1
  · cases rest with
    | nil => rfl
    | cons c rest =>
      obtain rfl : c = '\n' := h.after c rfl
      have htext : front ++ left ++ (right ++ '\n' :: rest) =
          (front ++ left ++ right ++ ['\n']) ++ rest := by simp
      rw [htext] at hpaired
      refine (Text.hasPairedBreaks_of_append hpaired fun hlast => ?_).2
      rw [List.getLast?_concat] at hlast
      cases hlast

/-- Without its newline, a paired text that ends with one is paired no more. -/
theorem hasPairedBreaks_eq_false_of_append {lines : Text}
    (h : hasPairedBreaks (lines ++ ['\n']) = true) : hasPairedBreaks lines = false := by
  rw [Bool.eq_false_iff]
  intro hlines
  by_cases hlast : lines.getLast? = some '\r'
  · obtain ⟨front, rfl⟩ := List.getLast?_eq_some_iff.1 hlast
    have hhead := Text.head?_of_hasPairedBreaks hlines
    cases hhead
  · have hbreak := (Text.hasPairedBreaks_of_append h fun h' => absurd h' hlast).2
    cases hbreak

/-- **A blank line goes with a whole pair**, unless it is the last of several lines. -/
theorem hasPairedBreaks_dropBlankLine_iff (h : IsLine front (left ++ right) rest)
    (hpaired : hasPairedBreaks (front ++ left ++ (right ++ rest)) = true) :
    ∃ r, dropBlankLine (front ++ left ++ (right ++ rest)) (byteLength (front ++ left)) = .ok r ∧
      (hasPairedBreaks r = true ↔
        ¬ (front ≠ [] ∧ rest = [] ∧ Text.isBlankText (left ++ right) = true)) ∧
      (front ≠ [] ∧ rest = [] ∧ Text.isBlankText (left ++ right) = true →
        hasPairedBreaks (r ++ ['\n']) = true) := by
  refine ⟨_, dropBlankLine_eq h, ?_⟩
  obtain ⟨hfront, htail⟩ := hasPairedBreaks_around h hpaired
  by_cases hblank : Text.isBlankText (left ++ right) = true
  · rw [if_pos hblank, aroundLine]
    by_cases hrest : rest = []
    · rw [if_pos hrest]
      rcases List.eq_nil_or_concat front with rfl | ⟨lines, c, rfl⟩
      · exact ⟨by simp; rfl, fun hlast => absurd rfl hlast.1⟩
      · -- Only the newline of the break before the line goes.
        obtain rfl : c = '\n' := h.before c (by simp)
        rw [List.concat_eq_append] at hfront ⊢
        rw [List.dropLast_concat]
        refine ⟨?_, fun _ => hfront⟩
        simp [hasPairedBreaks_eq_false_of_append hfront, hrest, hblank]
    · rw [if_neg hrest]
      have hjoined := Text.hasPairedBreaks_append hfront htail
      exact ⟨by simp [hjoined, hrest], fun hlast => absurd hlast.2.1 hrest⟩
  · rw [if_neg hblank]
    exact ⟨iff_of_true hpaired fun hlast => hblank hlast.2.2, fun hlast => absurd hlast.2.2 hblank⟩

end Lines

/-! ### Nodes -/

namespace SyntaxTree

variable {t : SyntaxTree} {n : Located}

/-- Whether a node, with the separator that goes with it, leaves the last of several lines blank. -/
def EmptiesLastLine (t : SyntaxTree) (n : Located) : Prop :=
  ∃ lines left removed right, t.source = lines ++ '\n' :: left ++ removed ++ right ∧
    byteLength (lines ++ '\n' :: left) = n.start ∧
    byteLength (lines ++ '\n' :: left ++ removed) = (t.separatorEnd? n).getD n.stop ∧
    '\n' ∉ left ++ right ∧ Text.isBlankText (left ++ right) = true

/-- The line that a node leaves behind is the last one exactly if no line break follows it. -/
theorem emptiesLastLine_iff {front left removed right rest : Text}
    (hline : IsLine front (left ++ right) rest)
    (hsource : t.source = front ++ left ++ removed ++ (right ++ rest))
    (hstart : byteLength (front ++ left) = n.start)
    (hstop : byteLength (front ++ left ++ removed) = (t.separatorEnd? n).getD n.stop) :
    t.EmptiesLastLine n ↔
      front ≠ [] ∧ rest = [] ∧ Text.isBlankText (left ++ right) = true := by
  constructor
  · rintro ⟨lines, left', removed', right', hsource', hstart', hstop', hfree, hblank⟩
    rw [hsource] at hsource'
    obtain ⟨hremoved, rfl⟩ := Text.append_inj_of_byteLength hsource' (hstop.trans hstop'.symm)
    obtain ⟨hfront, -⟩ := Text.append_inj_of_byteLength hremoved (hstart.trans hstart'.symm)
    have hlines : front ++ left = (lines ++ ['\n']) ++ left' := by simpa using hfront
    -- Both cuts are behind the last newline before the node.
    obtain ⟨rfl, rfl⟩ := Text.append_inj_of_newline_not_mem hlines hline.before
      (fun hmem => hline.not_mem (List.mem_append_left _ hmem)) (by simp)
      fun hmem => hfree (List.mem_append_left _ hmem)
    have hrest : rest = [] := by
      cases rest with
      | nil => rfl
      | cons c rest =>
        obtain rfl := hline.after c rfl
        exact absurd (by simp) hfree
    subst hrest
    exact ⟨by simp, rfl, by simpa using hblank⟩
  · rintro ⟨hne, rfl, hblank⟩
    rcases List.eq_nil_or_concat front with rfl | ⟨lines, c, rfl⟩
    · exact absurd rfl hne
    · obtain rfl : c = '\n' := hline.before c (by simp)
      refine ⟨lines, left, removed, right, ?_, ?_, ?_, hline.not_mem, hblank⟩
      · simpa using hsource
      · simpa using hstart
      · simpa using hstop

/-- **Removing a node keeps the line breaks of a text in pairs**, however the node is addressed,
except where it leaves the last of several lines blank.  Then just the newline of the last pair is
taken away. -/
theorem hasPairedBreaks_deleted_iff (hslices : t.HasSlices) (hordered : t.HasOrderedSiblings)
    (hpaired : hasPairedBreaks t.source = true) {how : Addressing} {path : Text}
    (htarget : t.target how path = .ok n) (hstart : splitsPair t.source n.start = false)
    (hstop : splitsPair t.source ((t.separatorEnd? n).getD n.stop) = false) :
    ∃ r, (Edit.delete how path).textAfter t = .ok r ∧
      (hasPairedBreaks r = true ↔ ¬ t.EmptiesLastLine n) ∧
      (t.EmptiesLastLine n → hasPairedBreaks (r ++ ['\n']) = true) := by
  have hn : n ∈ t.nodes := mem_nodes_of_target htarget
  obtain ⟨before, removed, after, hsource, hbefore, hremoved, hremoval⟩ :=
    textWithout_eq hslices hordered hn
  rw [← hbefore, hsource, List.append_assoc] at hstart
  rw [← hremoved, hsource] at hstop
  -- Neither cut splits a pair, so the two parts that stay are paired, and so is their join.
  have hfront := (Text.hasPairedBreaks_of_splitsPair_eq_false
    (by rwa [hsource, List.append_assoc] at hpaired) hstart).1
  have hback := (Text.hasPairedBreaks_of_splitsPair_eq_false (by rwa [hsource] at hpaired) hstop).2
  have hrest := Text.hasPairedBreaks_append hfront hback
  obtain ⟨front, left, right, rest, rfl, rfl, hline⟩ := Text.exists_isLine before after
  obtain ⟨r, hr, hiff, hlost⟩ := hasPairedBreaks_dropBlankLine_iff hline hrest
  rw [← emptiesLastLine_iff hline hsource hbefore hremoved] at hiff hlost
  refine ⟨r, ?_, hiff, hlost⟩
  simp only [Edit.textAfter, deleted, htarget, bind, Except.bind, hremoval, hr, inText]

/-- A tree of two statements on two lines, with a line break after the last one or without. -/
def ofTwoCalls (ending : Text) : SyntaxTree where
  root :=
    .mk ⟨"program", true, false, false, false, 0, 10, none⟩
      [.mk ⟨"expression_statement", true, false, false, false, 0, 4, none⟩ [],
        .mk ⟨"expression_statement", true, false, false, false, 6, 10, none⟩ []]
  broken := false
  source := "f();\r\ng();".toList ++ ending
  pack := LanguagePack.plain "javascript" .javascript

/-- A statement that a line break follows is removed with its line. -/
theorem hasPairedBreaks_deleted_closedLine :
    ∃ n, (ofTwoCalls "\r\n".toList).target .structural
        "program[0]/expression_statement[1]".toList = .ok n ∧
      ∃ r, (Edit.delete .structural "program[0]/expression_statement[1]".toList).textAfter
          (ofTwoCalls "\r\n".toList) = .ok r ∧
        (hasPairedBreaks r = true ↔ ¬ (ofTwoCalls "\r\n".toList).EmptiesLastLine n) ∧
        r = "f();\r\n".toList := by
  refine ⟨⟨[1], .mk ⟨"expression_statement", true, false, false, false, 6, 10, none⟩ []⟩, rfl, ?_⟩
  have htarget : (ofTwoCalls "\r\n".toList).target .structural
      "program[0]/expression_statement[1]".toList =
        .ok ⟨[1], .mk ⟨"expression_statement", true, false, false, false, 6, 10, none⟩ []⟩ := rfl
  obtain ⟨r, hr, hiff, -⟩ := hasPairedBreaks_deleted_iff (by decide) (by decide) (by decide) htarget
    (by decide) (by decide)
  refine ⟨r, hr, hiff, ?_⟩
  have hresult : (Edit.delete .structural "program[0]/expression_statement[1]".toList).textAfter
      (ofTwoCalls "\r\n".toList) = .ok "f();\r\n".toList := rfl
  rw [hresult] at hr
  exact (Except.ok.inj hr).symm

/-- A statement that ends the text is removed with its line, and with the newline before it, but the
carriage return before that stays. -/
theorem hasPairedBreaks_deleted_lastLine :
    (ofTwoCalls []).WellFormed ∧ hasPairedBreaks (ofTwoCalls []).source = true ∧
      (∃ n, (ofTwoCalls []).target .structural "program[0]/expression_statement[1]".toList = .ok n ∧
        splitsPair (ofTwoCalls []).source n.start = false ∧
        splitsPair (ofTwoCalls []).source n.stop = false ∧
        (ofTwoCalls []).separatorEnd? n = none) ∧
      (Edit.delete .structural "program[0]/expression_statement[1]".toList).textAfter
        (ofTwoCalls []) = .ok "f();\r".toList ∧
      hasPairedBreaks "f();\r".toList = false := by
  refine ⟨⟨by decide, by decide, by decide⟩, by decide, ?_, rfl, by decide⟩
  exact ⟨⟨[1], .mk ⟨"expression_statement", true, false, false, false, 6, 10, none⟩ []⟩, rfl,
    by decide, by decide, rfl⟩

end SyntaxTree

end SyntaxEdit
