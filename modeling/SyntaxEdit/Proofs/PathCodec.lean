/-
Which semantic paths are read back as they are written, and which quoted labels are read.

Nothing is escaped when a path is written.  A path reads back if its parts hold nothing that marks
the form of a path.

* `HasBlockForm`, `MatchesBlockForm` — the block form, without and with white space around it;
* `Text.HasQuotePairs` — a text with a pair of quotes at both its ends;
* `parse?_quotedCall_iff` — when a label between quotes is read;
* `parse?_codec` — for each form of a path, when it reads back, together with that.
-/
import SyntaxEdit.Proofs.SemanticCodec

namespace SyntaxEdit

namespace Text

/-- Whether a text of at least four bytes starts and ends with two copies of a quote. -/
def HasQuotePairs (q : Char) (t : Text) : Prop :=
  4 ≤ byteLength t ∧ [q, q] <+: t ∧ [q, q] <:+ t

/-- In a text of four bytes and more, the copies at the start and at the end do not overlap. -/
theorem hasQuotePairs_iff {q : Char} (hq : q.utf8Size = 1) {t : Text} :
    t.HasQuotePairs q ↔ ∃ inner, t = [q, q] ++ inner ++ [q, q] := by
  constructor
  · rintro ⟨hlength, ⟨back, rfl⟩, hstop⟩
    have hback : [q, q] <:+ back := by
      refine List.suffix_of_suffix_length_le hstop (List.suffix_append _ _) ?_
      -- A shorter rest would be made of quotes, of one byte each.
      match back with
      | [] => simp [hq] at hlength
      | [c] =>
        obtain ⟨front, hfront⟩ := hstop
        have hlast := congrArg List.getLast? hfront
        rw [List.getLast?_append] at hlast
        obtain rfl : q = c := by simpa using hlast
        simp [hq] at hlength
      | _ :: _ :: _ => simp
    obtain ⟨inner, rfl⟩ := hback
    exact ⟨inner, (List.append_assoc _ _ _).symm⟩
  · rintro ⟨inner, rfl⟩
    refine ⟨?_, ⟨inner ++ [q, q], (List.append_assoc _ _ _).symm⟩, List.suffix_append _ _⟩
    simp only [byteLength_append, byteLength_cons, byteLength_nil, hq]
    omega

/-- A text is what is trimmed off it, on both sides of what is left. -/
theorem exists_trim_eq (t : Text) :
    ∃ before after, (∀ c ∈ before, isBlank c = true) ∧ (∀ c ∈ after, isBlank c = true) ∧
      t = before ++ trim t ++ after := by
  refine ⟨t.takeWhile isBlank, takeEndWhile isBlank (trimStart t),
    fun c => List.all_eq_true.1 List.all_takeWhile c, fun c hc => mem_takeEndWhile hc, ?_⟩
  rw [List.append_assoc, trim, trimEnd, trimEndWhile_append_takeEndWhile, trimStart,
    List.takeWhile_append_dropWhile]

/-- Trimming takes off all white space around a text that neither starts nor ends with any. -/
theorem trim_append {before t after : Text} (hbefore : ∀ c ∈ before, isBlank c = true)
    (hafter : ∀ c ∈ after, isBlank c = true) (hne : t ≠ []) (ht : trim t = t) :
    trim (before ++ t ++ after) = t := by
  obtain ⟨hhead, hlast⟩ := trim_eq_self_iff.1 ht
  have hstart : ∀ c ∈ (t ++ after).head?, isBlank c = false := by
    obtain ⟨first, rest, rfl⟩ := List.exists_cons_of_ne_nil hne
    exact hhead
  rw [trim, trimStart, List.append_assoc, dropWhile_append_of_head hbefore hstart, trimEnd,
    trimEndWhile_append_of_getLast hlast hafter]

end Text

namespace SemanticPath

/-- Whether a text is of the block form, with white space around it. -/
def MatchesBlockForm (t : Text) : Prop :=
  ∃ before form after, (∀ c ∈ before, isBlank c = true) ∧ (∀ c ∈ after, isBlank c = true) ∧
    HasBlockForm form ∧ t = before ++ form ++ after

theorem HasBlockForm.trim_eq {t : Text} (h : HasBlockForm t) : t ≠ [] ∧ Text.trim t = t := by
  obtain ⟨callee, blanks, argument, hcallee, -, -, rfl⟩ := h
  exact ⟨by simp, trim_call hcallee blanks argument⟩

/-- The white space around a text does not matter for its form. -/
theorem matchesBlockForm_iff {t : Text} : MatchesBlockForm t ↔ HasBlockForm (Text.trim t) := by
  constructor
  · rintro ⟨before, form, after, hbefore, hafter, hform, rfl⟩
    rwa [Text.trim_append hbefore hafter hform.trim_eq.1 hform.trim_eq.2]
  · intro h
    obtain ⟨before, after, hbefore, hafter, ht⟩ := Text.exists_trim_eq t
    exact ⟨before, _, after, hbefore, hafter, h, ht⟩

/-- For parts that are joined by dots, the form is that of the whole as it stands. -/
theorem matchesBlockForm_render_iff {containers : List Text} {own : Text}
    (h : ∀ part ∈ containers ++ [own], IsPart part) :
    MatchesBlockForm (ofParts containers own).render ↔
      HasBlockForm (ofParts containers own).render := by
  rw [matchesBlockForm_iff, trim_render_ofParts h]

theorem parse?_render_ofParts_iff_matches {containers : List Text} {own : Text} :
    parse? (ofParts containers own).render = some (ofParts containers own) ↔
      (∀ part ∈ containers ++ [own], IsPart part) ∧
        ¬ MatchesBlockForm (ofParts containers own).render := by
  rw [parse?_render_ofParts_iff, isReadable_ofParts_iff]
  exact and_congr_right fun h => not_congr (matchesBlockForm_render_iff h).symm

/-- A call with one argument between quotes. -/
def quotedCall (callee : Text) (q : Char) (label : Text) : Text :=
  callee ++ '(' :: (q :: (label ++ [q]) ++ [')'])

/-- A label on one line is read from between its quotes, unless it has two more of them at both its
ends.  Backquotes may stand there, for three of them in a row have no meaning of their own. -/
theorem parse?_quotedCall_iff {callee label : Text} (hcallee : IsCallee callee) {q : Char}
    (hq : q ∈ ['"', '\'', '`']) (hline : '\n' ∉ label) :
    parse? (quotedCall callee q label) = some (.block callee (some label)) ↔
      ¬ (q ≠ '`' ∧ Text.HasQuotePairs q label) := by
  obtain ⟨hvisible, hsize⟩ := isBlank_and_utf8Size_of_quote hq
  have hfree : '\n' ∉ q :: (label ++ [q]) := by
    have hne : '\n' ≠ q := by
      rintro rfl
      exact absurd hvisible (by decide)
    simp [hline, hne]
  rw [quotedCall, parse?_call_iff hcallee, readLabel_between_iff hq, Text.hasQuotePairs_iff hsize,
    ne_eq, Classical.not_and_iff_not_or_not, Classical.not_not]
  exact and_iff_right hfree

/-- **What is written is read back**, as long as no part of it marks the form of a path.  A name,
and every part of a member in at least one container, has to be trimmed, not empty and without dots,
and the whole not of the block form.  A block needs a callee, and a label on one line without two
double quotes at both its ends.  A label between any quotes is read on the same terms, but two
backquotes may stand at both its ends. -/
theorem parse?_codec :
    (∀ own, parse? (name own).render = some (.name own) ↔ IsPart own ∧ ¬ MatchesBlockForm own) ∧
    (∀ containers own,
      parse? (SemanticPath.member containers own).render = some (.member containers own) ↔
        containers ≠ [] ∧ (∀ part ∈ containers ++ [own], IsPart part) ∧
          ¬ MatchesBlockForm (SemanticPath.member containers own).render) ∧
    (∀ callee label,
      parse? (SemanticPath.block callee label).render = some (.block callee label) ↔
        IsCallee callee ∧ ∀ l, label = some l → '\n' ∉ l ∧ ¬ Text.HasQuotePairs '"' l) ∧
    ∀ callee, IsCallee callee → ∀ q ∈ ['"', '\'', '`'], ∀ label, '\n' ∉ label →
      (parse? (quotedCall callee q label) = some (.block callee (some label)) ↔
        ¬ (q ≠ '`' ∧ Text.HasQuotePairs q label)) := by
  refine ⟨fun own => ?_, fun containers own => ?_, fun callee label => ?_,
    fun callee hcallee q hq label hline => parse?_quotedCall_iff hcallee hq hline⟩
  · have h := @parse?_render_ofParts_iff_matches [] own
    simpa [ofParts, render] using h
  · cases containers with
    | nil =>
      -- Without containers a member is written as a name, and reads back as one.
      rw [parse?_render_iff]
      simp [IsReadable]
    | cons container others =>
      exact (@parse?_render_ofParts_iff_matches (container :: others) own).trans
        (and_iff_right (List.cons_ne_nil container others)).symm
  · rw [parse?_render_block_iff]
    simp only [IsReadable, @Text.hasQuotePairs_iff '"' rfl]

/-- Three double quotes are a label, for two pairs of them would take four.  Four single quotes are
one between backquotes, but not between single quotes. -/
theorem parse?_codec_quotesInQuotes :
    parse? (quotedCall "test.each".toList '"' ['"', '"', '"']) =
        some (.block "test.each".toList (some ['"', '"', '"'])) ∧
      parse? (quotedCall "test.each".toList '`' ['\'', '\'', '\'', '\'']) =
        some (.block "test.each".toList (some ['\'', '\'', '\'', '\''])) ∧
      parse? (quotedCall "test.each".toList '\'' ['\'', '\'', '\'', '\'']) ≠
        some (.block "test.each".toList (some ['\'', '\'', '\'', '\''])) := by
  have hcallee : IsCallee "test.each".toList :=
    ⟨'t', "est.each".toList, rfl, by decide, List.all_eq_true.1 (by decide +kernel)⟩
  have hquoted := parse?_codec.2.2.2 _ hcallee
  have hpairs : Text.HasQuotePairs '\'' ['\'', '\'', '\'', '\''] :=
    ⟨by decide, by decide, by decide⟩
  refine ⟨(hquoted '"' (by decide) _ (by decide)).2 ?_,
    (hquoted '`' (by decide) _ (by decide)).2 ?_,
    fun h => (hquoted '\'' (by decide) _ (by decide)).1 h ⟨by decide, hpairs⟩⟩
  · rintro ⟨-, hlength, -⟩
    exact absurd hlength (by decide)
  · exact fun h => h.1 rfl

end SemanticPath

end SyntaxEdit
