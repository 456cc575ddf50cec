/-
Edits of nodes never cut a text where it cannot be cut.

Whatever an edit takes out of a text fails with an `InvalidRange` where the range is not a slice.
So an edit that does not fail in this way has taken slices only.  The one range that is asked for
without a failure is the gap in front of a separator.

* `Text.IsSlice` — the ranges that are slices of a text;
* `isSlice_of_apply`, `exists_apply_iff` — a splice applies exactly to a slice, whatever it puts
  there;
* `SyntaxTree.cutsAround`, `SyntaxTree.removalCuts` — the cuts that edits make around a node, and
  those that its removal makes in what is left of the source;
* `exists_appendSplice_slice`, `exists_insertSplice_slice` — the range where a new member goes;
* `Edit.refused_of_textAfter` — so an edit that fails is refused for its path;
* `SyntaxTree.edits_cut_slices` — no edit meets an invalid range, and all the cuts are slices.
-/
import SyntaxEdit.Proofs.NewMembers
import SyntaxEdit.Proofs.Refusals
import SyntaxEdit.Proofs.Removal

namespace SyntaxEdit

open Text (byteLength IsLine)

/-! ### Slices -/

/-- Whether a range is a slice of a text: its ends are in order, inside the text and between
characters. -/
def Text.IsSlice (t : Text) (start stop : Nat) : Prop :=
  ∃ part, Text.slice? t start stop = some part

theorem Text.isSlice_append (front middle back : Text) :
    Text.IsSlice (front ++ middle ++ back) (byteLength front) (byteLength (front ++ middle)) :=
  ⟨middle, Text.slice?_eq_some_iff.2 ⟨front, back, rfl, rfl, rfl⟩⟩

/-- What stands between two cuts of a text, the earlier one first, is a slice. -/
theorem Text.isSlice_of_cuts {t before after before' after' : Text} (h : t = before ++ after)
    (h' : t = before' ++ after') (hle : byteLength before ≤ byteLength before') :
    Text.IsSlice t (byteLength before) (byteLength before') := by
  obtain ⟨middle, rfl⟩ := Text.exists_append_of_byteLength_le (h.symm.trans h') hle
  rw [h']
  exact Text.isSlice_append before middle after'

theorem Splice.isSlice_of_apply {s : Splice} {t r : Text} (h : s.apply t = .ok r) :
    Text.IsSlice t s.start s.stop := by
  obtain ⟨hle, before, middle, middle', after, hstart, hstop, -⟩ := Splice.apply_eq_ok_iff.1 h
  obtain ⟨hsource, hbefore⟩ := Text.cut?_eq_some_iff.1 hstart
  obtain ⟨hsource', hmiddle⟩ := Text.cut?_eq_some_iff.1 hstop
  rw [← hbefore, ← hmiddle] at hle ⊢
  exact Text.isSlice_of_cuts hsource hsource' hle

/-- A splice applies exactly if its range is a slice. -/
theorem Splice.exists_apply_iff {s : Splice} {t : Text} :
    (∃ r, s.apply t = .ok r) ↔ Text.IsSlice t s.start s.stop := by
  constructor
  · rintro ⟨r, hr⟩
    exact isSlice_of_apply hr
  · rintro ⟨part, hpart⟩
    obtain ⟨front, back, rfl, hstart, hstop⟩ := Text.slice?_eq_some_iff.1 hpart
    have happly := Splice.apply_append front part back s.replacement
    rw [hstart, hstop] at happly
    exact ⟨_, happly⟩

namespace SyntaxTree

variable {t : SyntaxTree} {n body : Located}

/-! ### Around a node -/

/-- The gap between a node and its next sibling is a slice. -/
theorem isSlice_gap (h : t.WellFormed) (hn : n ∈ t.nodes) {next : Located}
    (hnext : t.nextSibling? n = some next) : Text.IsSlice t.source n.stop next.start := by
  obtain ⟨front, back, hsource, -, hstop⟩ := exists_source_eq h.slices hn
  obtain ⟨front', back', hsource', hstart', -⟩ :=
    exists_source_eq h.slices (mem_nodes_of_nextSibling? hn hnext)
  have hle := stop_le_start_of_nextSibling? h.ordered hn hnext
  rw [List.append_assoc] at hsource'
  rw [← hstop, ← hstart'] at hle ⊢
  exact Text.isSlice_of_cuts hsource hsource' hle

/-- The cuts of the source that edits make around a node. -/
structure CutsAround (t : SyntaxTree) (n : Located) : Prop where
  /-- The node itself. -/
  node : Text.IsSlice t.source n.start n.stop
  /-- The gap before the next sibling, which may be a separator. -/
  gap : ∀ next, t.nextSibling? n = some next → Text.IsSlice t.source n.stop next.start
  /-- The line that the node starts on, and what precedes the node there. -/
  line : ∃ start stop, Text.lineStart t.source n.start = .ok start ∧
    Text.lineEnd t.source start = .ok stop ∧ Text.IsSlice t.source start stop ∧
    Text.IsSlice t.source start n.start
  /-- The spaces and tabs right before the node. -/
  indent : ∃ start, Text.indentBefore t.source n.start = .ok start ∧
    Text.IsSlice t.source start n.start
  /-- The end of the node, or the offset in front of the newline that ends it. -/
  beforeNewline : ∃ front after, Text.cutAt t.source n.stop = .ok (front, after) ∧ ∃ stop,
    stop = (if n.start < n.stop ∧ front.getLast? = some '\n' then n.stop - 1 else n.stop) ∧
    Text.IsSlice t.source stop stop
  /-- The end of the line there, in front of its whole line break. -/
  lastLine : ∃ stop, t.lastLineEnd n = .ok stop ∧ Text.IsSlice t.source stop stop

/-- All these cuts can be made. -/
theorem cutsAround (h : t.WellFormed) (hn : n ∈ t.nodes) : t.CutsAround n where
  node := by
    obtain ⟨front, back, hsource, hstart, hstop⟩ := exists_source_eq h.slices hn
    rw [hsource, ← hstart, ← hstop]
    exact Text.isSlice_append front (t.textOf n.node) back
  gap next hnext := isSlice_gap h hn hnext
  line := by
    obtain ⟨front, left, right, rest, hsource, hstart, hline⟩ := exists_line_eq h.slices hn
    -- The whole line follows the offset at which it starts.
    have hwhole : t.source = front ++ [] ++ (left ++ right ++ rest) := by simp [hsource]
    have hline' : IsLine front ([] ++ (left ++ right)) rest := hline
    have hslice := Text.isSlice_append front (left ++ right) rest
    refine ⟨byteLength front, byteLength (front ++ (left ++ right)), ?_, ?_, ?_, ?_⟩
    · rw [hsource, ← hstart, Text.lineStart_eq hline]
    · have hend := Text.lineEnd_eq hline'
      rw [hwhole]
      simpa using hend
    · rw [hsource]
      simpa using hslice
    · rw [hsource, ← hstart]
      exact Text.isSlice_append front left (right ++ rest)
  indent := by
    obtain ⟨before, back, hsource, hstart, -⟩ := exists_source_eq h.slices hn
    have hslice := Text.isSlice_append (Text.trimEndWhile isIndent before)
      (Text.takeEndWhile isIndent before) (t.textOf n.node ++ back)
    rw [Text.trimEndWhile_append_takeEndWhile] at hslice
    refine ⟨byteLength (Text.trimEndWhile isIndent before), ?_, ?_⟩
    · rw [hsource, ← hstart, List.append_assoc, Text.indentBefore_append]
    · rwa [hsource, ← hstart, List.append_assoc]
  beforeNewline := by
    obtain ⟨front, after, before, rest, hcut, hsource, hstop, -⟩ := exists_lastLine_cut h.slices hn
    have hslice := Text.isSlice_append before [] rest
    rw [List.append_nil, ← hsource] at hslice
    exact ⟨front, after, hcut, byteLength before, hstop.symm, hslice⟩
  lastLine := by
    obtain ⟨stop, offset, r, hstop, hr, -⟩ := exists_lastLineEnd h.slices hn .newline []
    exact ⟨stop, hstop, Splice.isSlice_of_apply hr⟩

/-! ### Removals -/

/-- The cuts that the removal of a node makes: it takes out a slice of the source, and then looks at
the line around the place where the node stood.  This line is a slice of what is left, and so is the
line with one of its line breaks. -/
structure RemovalCuts (t : SyntaxTree) (n : Located) : Prop where
  removed : Text.IsSlice t.source n.start ((t.separatorEnd? n).getD n.stop)
  line : ∃ rest start stop,
    (Splice.mk n.start ((t.separatorEnd? n).getD n.stop) []).apply t.source = .ok rest ∧
    Text.lineStart rest n.start = .ok start ∧ Text.lineEnd rest n.start = .ok stop ∧
    Text.IsSlice rest start stop ∧
    Text.IsSlice rest (removeLine rest start stop).start (removeLine rest start stop).stop

theorem removalCuts (h : t.WellFormed) (hn : n ∈ t.nodes) : t.RemovalCuts n := by
  obtain ⟨before, removed, after, hsource, hstart, hstop⟩ :=
    exists_source_eq_of_removal h.slices h.ordered hn
  have happly := Splice.apply_append before removed after []
  rw [← hsource, hstart, hstop, List.append_nil] at happly
  obtain ⟨front, left, right, rest, rfl, rfl, hline⟩ := Text.exists_isLine before after
  -- The splice that removes the line is known to apply.
  have hslice := Text.isSlice_append front (left ++ right) rest
  have hremoved := Splice.isSlice_of_apply (removeLine_apply hline)
  refine ⟨Splice.isSlice_of_apply happly, _, byteLength front,
    byteLength (front ++ (left ++ right)), happly, ?_, ?_, ?_, ?_⟩
  · rw [← hstart, Text.lineStart_eq hline]
  · rw [← hstart, Text.lineEnd_eq hline]
  · simpa using hslice
  · simpa using hremoved

/-! ### New members -/

/-- A last member of a body goes to a slice of the source. -/
theorem exists_appendSplice_slice (h : t.HasSlices) (hbody : body ∈ t.nodes) (content : Text) :
    ∃ s, t.appendSplice body content = .ok s ∧ Text.IsSlice t.source s.start s.stop := by
  obtain ⟨indent, hindent, -⟩ := exists_memberIndent_eq h hbody
  -- What is replaced is where the splice was applied, or stands between known parts of the text.
  rcases appendSplice_cases h hbody hindent content with ⟨closing, hclosing, hsplice⟩ |
    ⟨-, -, hsplice⟩ | ⟨-, -, hsplice⟩
  · obtain ⟨s, r, hs, hr, -⟩ := exists_appendBeforeClosing h
      (mem_nodes_of_closingDelimiter? hbody hclosing) (.ofText t.source)
      (memberBlock content indent (.ofText t.source))
    exact ⟨s, hsplice.trans hs, Splice.isSlice_of_apply hr⟩
  · obtain ⟨stop, offset, r, hstop, hr, -⟩ := exists_lastLineEnd h hbody (.ofText t.source)
      (memberBlock content indent (.ofText t.source))
    exact ⟨_, hsplice stop hstop, Splice.isSlice_of_apply hr⟩
  · obtain ⟨front, gap, shown, blanks, back, hsource, -, -, -, -, -, hinline⟩ :=
      exists_appendAfterInline_eq h hbody
    have hslice := Text.isSlice_append front (gap ++ shown) (blanks ++ back)
    refine ⟨_, hsplice.trans (hinline _ _ _), ?_⟩
    rw [hsource]
    simpa using hslice

/-- A member in front of another one goes to a slice of the source. -/
theorem exists_insertSplice_slice (h : t.HasSlices) (hbody : body ∈ t.nodes) {anchor : Located}
    (hanchor : anchor ∈ t.nodes) (content : Text) :
    ∃ s, t.insertSplice body anchor content = .ok s ∧ Text.IsSlice t.source s.start s.stop := by
  rcases exists_apply_before h hanchor (.ofText t.source) with ⟨hstarts, start, hstart, happly⟩ |
    ⟨hstarts, start, hstart, happly⟩
  · obtain ⟨indent, hindent, -⟩ := exists_lineIndent h hanchor
    obtain ⟨r, hr, -⟩ := happly (memberBlock content indent (.ofText t.source))
    refine ⟨_, ?_, Splice.isSlice_of_apply hr⟩
    simp only [insertSplice, hstarts, hstart, hindent, bind, Except.bind, pure, Except.pure,
      if_true]
  · obtain ⟨indent, hindent, -⟩ := exists_memberIndent_eq h hbody
    -- The indentation may be any text, but a splice applies whatever it puts in.
    obtain ⟨r, hr, -⟩ := happly (memberBlock content indent (.ofText t.source)) [] rfl
    have hslice := Splice.isSlice_of_apply hr
    simp only [insertSplice, hstarts, hstart, hindent, bind, Except.bind, pure, Except.pure]
    exact ⟨_, rfl, hslice⟩

/-- A splice that there is, and whose range is a slice, gives an edited text. -/
theorem exists_inText_eq {cuts : Except InvalidRange Splice}
    (h : ∃ s, cuts = .ok s ∧ Text.IsSlice t.source s.start s.stop) :
    ∃ r, inText (do (← cuts).apply t.source) = .ok r := by
  obtain ⟨s, rfl, hslice⟩ := h
  obtain ⟨r, hr⟩ := Splice.exists_apply_iff.2 hslice
  exact ⟨r, by simp only [bind, Except.bind, hr, inText]⟩

/-- Every body takes a last member, whatever one level of indentation is. -/
theorem exists_appendedTo_eq (h : t.HasSlices) (hbody : body ∈ t.nodes) (content : Text) :
    ∃ r, t.appendedTo body content = .ok r :=
  exists_inText_eq (exists_appendSplice_slice h hbody content)

end SyntaxTree

/-! ### Edits -/

namespace Edit

open SyntaxTree

variable {t : SyntaxTree} {change : Edit} {e : EditError}

/-- No edit cuts a well-formed tree where it cannot be cut. -/
theorem textAfter_ne_invalidRange (h : t.WellFormed) (change : Edit) (range : InvalidRange) :
    change.textAfter t ≠ .error (.invalidRange range) := by
  intro he
  -- A path that names no node is refused otherwise, and where it names one all cuts are slices.
  cases change with
  | addLines after content => cases he
  | removeLines start stop => cases he
  | updateLine line content => cases he
  | update how path content =>
    rcases bind_eq_error_iff.1 he with htarget | ⟨n, htarget, -⟩
    · exact target_ne_invalidRange range htarget
    · obtain ⟨front, back, -, -, -, hupdate⟩ :=
        exists_textAfter_update h.slices (mem_nodes_of_target htarget)
      rw [hupdate how path content htarget] at he
      cases he
  | delete how path =>
    rcases bind_eq_error_iff.1 he with htarget | ⟨n, htarget, he⟩
    · exact target_ne_invalidRange range htarget
    · obtain ⟨r, hr⟩ := exists_textWithout h.slices h.ordered (mem_nodes_of_target htarget)
      rw [hr] at he
      cases he
  | append parent content =>
    rw [textAfter, appended] at he
    split at he
    · cases he
    · rcases bind_eq_error_iff.1 he with hbody | ⟨body, hbody, he⟩
      · exact targetBody_ne_invalidRange range hbody
      · obtain ⟨r, hr⟩ := exists_appendedTo_eq h.slices (mem_nodes_of_targetBody hbody) content
        rw [hr] at he
        cases he
  | insertBefore parent content types =>
    rw [textAfter, insertedBefore] at he
    split at he
    · cases he
    · rcases bind_eq_error_iff.1 he with hbody | ⟨body, hbody, he⟩
      · exact targetBody_ne_invalidRange range hbody
      · have hmem := mem_nodes_of_targetBody hbody
        split at he
        · rename_i anchor hanchor
          have hnode := mem_nodes_of_mem_namedChildren hmem (List.mem_of_find?_eq_some hanchor)
          obtain ⟨r, hr⟩ := exists_inText_eq (exists_insertSplice_slice h.slices hmem hnode content)
          rw [hr] at he
          cases he
        · obtain ⟨r, hr⟩ := exists_appendedTo_eq h.slices hmem content
          rw [hr] at he
          cases he

/-- So an edit that fails is refused for its path. -/
theorem refused_of_textAfter (h : t.WellFormed) (he : change.textAfter t = .error e) :
    Refused t change e := by
  rcases refused_or_invalidRange he with hrefused | ⟨range, rfl⟩
  · exact hrefused
  · exact absurd he (textAfter_ne_invalidRange h change range)

end Edit

namespace SyntaxTree

variable {t : SyntaxTree}

/-- **Edits of nodes are always well placed.**  On a tree that fits its source no edit meets an
invalid range, and all that edits cut out of the source, or out of what a removal leaves of it, are
slices. -/
theorem edits_cut_slices (h : t.WellFormed) :
    (∀ (change : Edit) range, change.textAfter t ≠ .error (.invalidRange range)) ∧
    ∀ n ∈ t.nodes, t.CutsAround n ∧ t.RemovalCuts n ∧ ∀ content,
      (∃ s, t.appendSplice n content = .ok s ∧ Text.IsSlice t.source s.start s.stop) ∧
      ∀ anchor ∈ n.namedChildren, ∃ s, t.insertSplice n anchor content = .ok s ∧
        Text.IsSlice t.source s.start s.stop := by
  refine ⟨Edit.textAfter_ne_invalidRange h, fun n hn => ?_⟩
  refine ⟨cutsAround h hn, removalCuts h hn, fun content => ⟨?_, fun anchor hanchor => ?_⟩⟩
  · exact exists_appendSplice_slice h.slices hn content
  · exact exists_insertSplice_slice h.slices hn (mem_nodes_of_mem_namedChildren hn hanchor) content

/-- The tree of a call under a comment.  The text ends before the call is closed, and the parser has
supplied the token for that. -/
def ofUnclosedCall : SyntaxTree where
  root :=
    .mk ⟨"program", true, false, false, false, 0, 10, none⟩
      [.mk ⟨"comment", true, false, false, true, 0, 5, none⟩ [],
        .mk ⟨"call_expression", true, false, false, false, 7, 10, none⟩
          [.mk ⟨"identifier", true, false, false, false, 7, 8, some "function"⟩ [],
            .mk ⟨"arguments", true, false, false, false, 8, 10, some "arguments"⟩
              [.mk ⟨"(", false, false, false, false, 8, 9, none⟩ [],
                .mk ⟨"identifier", true, false, false, false, 9, 10, none⟩ [],
                .mk ⟨")", false, true, false, false, 10, 10, none⟩ []]]]
  broken := true
  source := "// É\r\nf(x".toList
  pack := LanguagePack.plain "javascript" .javascript

/-- The arguments close with a token without text, and all is cut in front of that as well. -/
theorem edits_cut_slices_missingToken :
    ofUnclosedCall.WellFormed ∧
      (∀ (change : Edit) range, change.textAfter ofUnclosedCall ≠ .error (.invalidRange range)) ∧
      ∃ body closing, body ∈ ofUnclosedCall.nodes ∧ body.closingDelimiter? = some closing ∧
        closing.node.label.missing = true ∧ closing.start = closing.stop ∧
        ∃ s, ofUnclosedCall.appendSplice body "y".toList = .ok s ∧
          Text.IsSlice ofUnclosedCall.source s.start s.stop := by
  have hfits : ofUnclosedCall.WellFormed := ⟨by decide, by decide, by decide⟩
  obtain ⟨hcuts, haround⟩ := edits_cut_slices hfits
  obtain ⟨body, hbody⟩ : ∃ body, ofUnclosedCall.root.at? [1, 1] = some body := ⟨_, rfl⟩
  have hmem : ⟨[1, 1], body⟩ ∈ ofUnclosedCall.nodes := mem_nodes_iff.2 hbody
  cases hbody
  refine ⟨hfits, hcuts, _, _, hmem, rfl, rfl, rfl, ?_⟩
  exact ((haround _ hmem).2.2 "y".toList).1

end SyntaxTree

end SyntaxEdit
