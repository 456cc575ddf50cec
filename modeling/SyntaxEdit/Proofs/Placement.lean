/-
Where a new member of a body goes.

A member is added in front of a token, on a line of its own or between two halves of a line, or it
is added after the last line of a body that no token closes.

* `AddsBefore`, `AddsAfter` — the text that comes of a block in each of these places;
* `exists_memberIndent` — there is an indentation for a new member;
* `exists_appendBeforeClosing`, `exists_insertSplice` — a member can be added in front of every
  token of a tree that fits its source;
* `exists_appendAfterInline`, `exists_lastLineEnd` — and after every body;
* `appendSplice_cases` — which of these is done at the end of a body.
-/
import SyntaxEdit.Edit.Basic
import SyntaxEdit.Proofs.Lines
import SyntaxEdit.Proofs.Targets
import SyntaxEdit.Proofs.WellFormed

namespace SyntaxEdit

open Text (byteLength IsLine)

/-! ### Offsets on a line -/

namespace Text

/-- Whether only spaces and tabs stand between the start of a line and an offset. -/
def StartsLine (t : Text) (offset : Nat) : Prop :=
  ∃ front indent back, t = front ++ indent ++ back ∧ byteLength (front ++ indent) = offset ∧
    (∀ c ∈ front.getLast?, c = '\n') ∧ indent.all isIndent = true

/-- Whether the line around an offset ends at `stop`, before its newline. -/
def IsLineEnd (t : Text) (offset stop : Nat) : Prop :=
  ∃ before line after, t = before ++ line ++ after ∧ byteLength before = offset ∧
    byteLength (before ++ line) = stop ∧ '\n' ∉ line ∧ ∀ c ∈ after.head?, c = '\n'

theorem newline_not_mem_of_all_isIndent {t : Text} (h : t.all isIndent = true) : '\n' ∉ t :=
  fun hmem => absurd (List.all_eq_true.1 h '\n' hmem) (by decide)

/-- The test for the start of a line says what it should. -/
theorem exists_startsLine_eq (before after : Text) :
    ∃ starts, startsLine (before ++ after) (byteLength before) = .ok starts ∧
      (starts = true ↔ StartsLine (before ++ after) (byteLength before)) := by
  obtain ⟨front, left, right, rest, rfl, rfl, hline⟩ := exists_isLine before after
  refine ⟨left.all isIndent, startsLine_eq hline, fun hleft => ?_, ?_⟩
  · exact ⟨front, left, right ++ rest, rfl, rfl, hline.before, hleft⟩
  · rintro ⟨front', indent, back, htext, hoffset, hfront', hindent⟩
    obtain ⟨hsame, -⟩ := append_inj_of_byteLength htext hoffset.symm
    -- Both `left` and `indent` are what follows the last newline before the offset.
    obtain ⟨-, rfl⟩ := append_inj_of_newline_not_mem hsame hline.before
      (fun hmem => hline.not_mem (List.mem_append_left _ hmem)) hfront'
      (newline_not_mem_of_all_isIndent hindent)
    exact hindent

end Text

/-! ### Texts with a new member -/

/-- What comes of a block that is added in front of an offset. -/
inductive AddsBefore (source : Text) (eol : LineBreak) (block : Text) (offset : Nat) : Text → Prop
  /-- The offset starts its line, and the block goes on a line before that. -/
  | ownLine {front indent back : Text} (hsource : source = front ++ indent ++ back)
      (hoffset : byteLength (front ++ indent) = offset) (hfront : ∀ c ∈ front.getLast?, c = '\n')
      (hindent : indent.all isIndent = true) :
      AddsBefore source eol block offset (front ++ (block ++ eol.text) ++ (indent ++ back))
  /-- The line is broken at the offset, and the block goes in between. -/
  | brokenLine {front gap back indent : Text} (hsource : source = front ++ gap ++ back)
      (hoffset : byteLength (front ++ gap) = offset) (hgap : gap.all isIndent = true)
      (hindent : indent.all isIndent = true) :
      AddsBefore source eol block offset
        (front ++ (eol.text ++ block ++ eol.text ++ indent) ++ back)

/-- What comes of a block that is added after a body that no token closes. -/
inductive AddsAfter (source : Text) (eol : LineBreak) (block : Text) (body : Located) :
    Nat → Text → Prop
  /-- The body stands behind its header and goes on a line of its own. -/
  | inline {front gap shown blanks back indent : Text}
      (hsource : source = front ++ gap ++ (shown ++ blanks) ++ back)
      (hstart : byteLength (front ++ gap) = body.start)
      (hstop : byteLength (front ++ gap ++ (shown ++ blanks)) = body.stop)
      (hgap : gap.all isIndent = true) (hblanks : ∀ c ∈ blanks, isBlank c = true)
      (hshown : ∀ c ∈ shown.getLast?, isBlank c = false) (hindent : indent.all isIndent = true) :
      AddsAfter source eol block body body.stop
        (front ++ (eol.text ++ indent ++ shown ++ eol.text ++ block) ++ (blanks ++ back))
  /-- The block goes after the last line of the body, before the break that ends it. -/
  | lastLine {front ending back : Text} {offset : Nat} (hsource : source = front ++ ending ++ back)
      (hoffset : byteLength (front ++ ending) = offset)
      (hending : (ending = [] ∧ front.getLast? ≠ some '\r') ∨ ending = ['\r']) :
      AddsAfter source eol block body offset (front ++ (eol.text ++ block) ++ (ending ++ back))

namespace SyntaxTree

variable {t : SyntaxTree} {body : Located}

/-! ### Indentation -/

/-- The source around the start of a node, by lines. -/
theorem exists_line_eq (h : t.HasSlices) {n : Located} (hn : n ∈ t.nodes) :
    ∃ front left right rest, t.source = front ++ left ++ (right ++ rest) ∧
      byteLength (front ++ left) = n.start ∧ IsLine front (left ++ right) rest := by
  obtain ⟨before, back, hsource, hstart, -⟩ := exists_source_eq h hn
  obtain ⟨front, left, right, rest, rfl, hafter, hline⟩ :=
    Text.exists_isLine before (t.textOf n.node ++ back)
  exact ⟨front, left, right, rest, by rw [hsource, List.append_assoc, hafter], hstart, hline⟩

theorem exists_lineIndent (h : t.HasSlices) {n : Located} (hn : n ∈ t.nodes) :
    ∃ indent, Text.lineIndent t.source n.start = .ok indent ∧ indent.all isIndent = true := by
  obtain ⟨front, left, right, rest, hsource, hstart, hline⟩ := exists_line_eq h hn
  refine ⟨(left ++ right).takeWhile isIndent, ?_, List.all_takeWhile⟩
  rw [hsource, ← hstart, Text.lineIndent_eq hline]

/-- There is an indentation for the members of a body. It is of spaces and tabs if one level of
indentation is. -/
theorem exists_memberIndent_eq (h : t.HasSlices) (hbody : body ∈ t.nodes) :
    ∃ indent, t.memberIndent body = .ok indent ∧
      (t.pack.indentUnit.all isIndent = true → indent.all isIndent = true) := by
  -- One level more than the line on which the body closes, or else starts.
  obtain ⟨outer, houter, hindent⟩ : ∃ outer,
      Text.lineIndent t.source ((body.closingDelimiter?.map Located.start).getD body.start) =
        .ok outer ∧ outer.all isIndent = true := by
    cases hclosing : body.closingDelimiter? with
    | none => exact exists_lineIndent h hbody
    | some closing => exact exists_lineIndent h (mem_nodes_of_closingDelimiter? hbody hclosing)
  have hdeeper : t.pack.indentUnit.all isIndent = true →
      (outer ++ t.pack.indentUnit).all isIndent = true := by
    intro hunit
    rw [List.all_append, hindent, hunit]
    rfl
  simp only [memberIndent, houter, bind, Except.bind, pure, Except.pure]
  cases hfirst : body.namedChildren.head? with
  | none => exact ⟨_, rfl, hdeeper⟩
  | some first =>
    have hmem := mem_nodes_of_mem_namedChildren hbody (List.mem_of_mem_head? hfirst)
    obtain ⟨front, left, right, rest, hsource, hstart, hline⟩ := exists_line_eq h hmem
    have hstarts : Text.startsLine t.source first.start = .ok (left.all isIndent) := by
      rw [hsource, ← hstart, Text.startsLine_eq hline]
    obtain ⟨own, hown, hownIndent⟩ := exists_lineIndent h hmem
    simp only [hstarts]
    cases left.all isIndent with
    | true => exact ⟨own, hown, fun _ => hownIndent⟩
    | false => exact ⟨_, rfl, hdeeper⟩

theorem exists_memberIndent (h : t.HasSlices) (hunit : t.pack.indentUnit.all isIndent = true)
    (hbody : body ∈ t.nodes) :
    ∃ indent, t.memberIndent body = .ok indent ∧ indent.all isIndent = true := by
  obtain ⟨indent, hindent, hall⟩ := exists_memberIndent_eq h hbody
  exact ⟨indent, hindent, hall hunit⟩

/-! ### In front of a token -/

variable {eol : LineBreak}

/-- In front of an offset that starts its line, a block goes on a line before that. -/
theorem exists_ownLine_apply {front left right rest : Text}
    (hline : IsLine front (left ++ right) rest) (hleft : left.all isIndent = true) (block : Text) :
    ∃ r, (Splice.insert (byteLength front) (block ++ eol.text)).apply
        (front ++ left ++ (right ++ rest)) = .ok r ∧
      AddsBefore (front ++ left ++ (right ++ rest)) eol block (byteLength (front ++ left)) r := by
  refine ⟨_, ?_, .ownLine rfl rfl hline.before hleft⟩
  have happly := Splice.apply_append front [] (left ++ (right ++ rest)) (block ++ eol.text)
  rwa [List.append_nil, ← List.append_assoc front left] at happly

/-- In front of an offset within a line, a block breaks the line. -/
theorem exists_brokenLine_apply (before after block : Text) {indent : Text}
    (hindent : indent.all isIndent = true) :
    ∃ r, (Splice.mk (byteLength (Text.trimEndWhile isIndent before)) (byteLength before)
        (eol.text ++ block ++ eol.text ++ indent)).apply (before ++ after) = .ok r ∧
      AddsBefore (before ++ after) eol block (byteLength before) r := by
  have hbefore := Text.trimEndWhile_append_takeEndWhile isIndent before
  have hgap : (Text.takeEndWhile isIndent before).all isIndent = true :=
    List.all_eq_true.2 fun c hc => Text.mem_takeEndWhile hc
  refine ⟨_, ?_, .brokenLine (by rw [hbefore]) (by rw [hbefore]) hgap hindent⟩
  have happly := Splice.apply_append (Text.trimEndWhile isIndent before)
    (Text.takeEndWhile isIndent before) after (eol.text ++ block ++ eol.text ++ indent)
  rwa [hbefore] at happly

/-- A node either starts its line or stands within it, and a block can be added in front of it in
the one way or in the other. -/
theorem exists_apply_before (h : t.HasSlices) {n : Located} (hn : n ∈ t.nodes) (eol : LineBreak) :
    (Text.startsLine t.source n.start = .ok true ∧
      ∃ start, Text.lineStart t.source n.start = .ok start ∧
        ∀ block, ∃ r, (Splice.insert start (block ++ eol.text)).apply t.source = .ok r ∧
          AddsBefore t.source eol block n.start r) ∨
    (Text.startsLine t.source n.start = .ok false ∧
      ∃ start, Text.indentBefore t.source n.start = .ok start ∧
        ∀ block indent, indent.all isIndent = true →
          ∃ r, (Splice.mk start n.start (eol.text ++ block ++ eol.text ++ indent)).apply t.source =
              .ok r ∧
            AddsBefore t.source eol block n.start r) := by
  obtain ⟨front, left, right, rest, hsource, hstart, hline⟩ := exists_line_eq h hn
  rw [hsource, ← hstart, Text.startsLine_eq hline, Text.lineStart_eq hline,
    Text.indentBefore_append]
  cases hleft : left.all isIndent with
  | true => exact .inl ⟨rfl, _, rfl, exists_ownLine_apply hline hleft⟩
  | false =>
    exact .inr ⟨rfl, _, rfl, fun block _ hindent => exists_brokenLine_apply _ _ block hindent⟩

/-- A member can be added in front of the token that closes a body. -/
theorem exists_appendBeforeClosing (h : t.HasSlices) {closing : Located}
    (hclosing : closing ∈ t.nodes) (eol : LineBreak) (block : Text) :
    ∃ s r, t.appendBeforeClosing eol block closing = .ok s ∧ s.apply t.source = .ok r ∧
      AddsBefore t.source eol block closing.start r := by
  obtain ⟨indent, hindent, hall⟩ := exists_lineIndent h hclosing
  rcases exists_apply_before h hclosing eol with ⟨hstarts, start, hstart, happly⟩ |
    ⟨hstarts, start, hstart, happly⟩
  · obtain ⟨r, hr, hadds⟩ := happly block
    refine ⟨_, r, ?_, hr, hadds⟩
    simp only [appendBeforeClosing, hstarts, hstart, bind, Except.bind, pure, Except.pure, if_true]
  · obtain ⟨r, hr, hadds⟩ := happly block indent hall
    refine ⟨_, r, ?_, hr, hadds⟩
    simp only [appendBeforeClosing, hstarts, hstart, hindent, bind, Except.bind, pure, Except.pure]
    rfl

/-- A member can be added in front of another one. -/
theorem exists_insertSplice (h : t.HasSlices) (hunit : t.pack.indentUnit.all isIndent = true)
    (hbody : body ∈ t.nodes) {anchor : Located} (hanchor : anchor ∈ t.nodes) (content : Text) :
    ∃ indent s r, indent.all isIndent = true ∧ t.insertSplice body anchor content = .ok s ∧
      s.apply t.source = .ok r ∧
      AddsBefore t.source (.ofText t.source) (memberBlock content indent (.ofText t.source))
        anchor.start r := by
  -- An anchor that starts its line gives the indentation, and otherwise the body does.
  rcases exists_apply_before h hanchor (.ofText t.source) with ⟨hstarts, start, hstart, happly⟩ |
    ⟨hstarts, start, hstart, happly⟩
  · obtain ⟨indent, hindent, hall⟩ := exists_lineIndent h hanchor
    obtain ⟨r, hr, hadds⟩ := happly (memberBlock content indent (.ofText t.source))
    refine ⟨indent, _, r, hall, ?_, hr, hadds⟩
    simp only [insertSplice, hstarts, hstart, hindent, bind, Except.bind, pure, Except.pure,
      if_true]
  · obtain ⟨indent, hindent, hall⟩ := exists_memberIndent h hunit hbody
    obtain ⟨r, hr, hadds⟩ := happly (memberBlock content indent (.ofText t.source)) indent hall
    refine ⟨indent, _, r, hall, ?_, hr, hadds⟩
    simp only [insertSplice, hstarts, hstart, hindent, bind, Except.bind, pure, Except.pure]
    rfl

/-! ### After a body -/

/-- What a body behind its header is replaced by starts after the header, and ends where the body
ends but for white space. -/
theorem exists_appendAfterInline_eq (h : t.HasSlices) (hbody : body ∈ t.nodes) :
    ∃ front gap shown blanks back, t.source = front ++ gap ++ (shown ++ blanks) ++ back ∧
      byteLength (front ++ gap) = body.start ∧
      byteLength (front ++ gap ++ (shown ++ blanks)) = body.stop ∧ gap.all isIndent = true ∧
      (∀ c ∈ blanks, isBlank c = true) ∧ (∀ c ∈ shown.getLast?, isBlank c = false) ∧
      ∀ eol indent block, t.appendAfterInline eol indent block body =
        .ok ⟨byteLength front, byteLength (front ++ (gap ++ shown)),
          eol.text ++ indent ++ shown ++ eol.text ++ block⟩ := by
  obtain ⟨before, back, hsource, hstart, hstop⟩ := exists_source_eq h hbody
  obtain ⟨front, gap, hbefore, hheader, hgap⟩ : ∃ front gap, before = front ++ gap ∧
      Text.indentBefore t.source body.start = .ok (byteLength front) ∧ gap.all isIndent = true := by
    refine ⟨_, _, (Text.trimEndWhile_append_takeEndWhile isIndent before).symm, ?_,
      List.all_eq_true.2 fun c hc => Text.mem_takeEndWhile hc⟩
    rw [hsource, ← hstart, List.append_assoc, Text.indentBefore_append]
  subst hbefore
  have htext : Text.between t.source body.start body.stop = .ok (t.textOf body.node) := by
    rw [← hstart, ← hstop, hsource, Text.between_append]
  -- White space at the end of the body stays behind the new member.
  obtain ⟨shown, blanks, hshown, hsplit, hlast, hblanks⟩ : ∃ shown blanks,
      Text.trimEnd (t.textOf body.node) = shown ∧ t.textOf body.node = shown ++ blanks ∧
        (∀ c ∈ shown.getLast?, isBlank c = false) ∧ ∀ c ∈ blanks, isBlank c = true :=
    ⟨_, _, rfl, (Text.trimEndWhile_append_takeEndWhile isBlank _).symm,
      fun _ => Text.not_of_mem_getLast?_trimEndWhile, fun _ => Text.mem_takeEndWhile⟩
  rw [hsplit] at hsource hstop
  refine ⟨front, gap, shown, blanks, back, hsource, hstart, hstop, hgap, hblanks, hlast, ?_⟩
  intro eol indent block
  simp only [appendAfterInline, hheader, htext, hshown, bind, Except.bind, pure, Except.pure]
  rw [← hstart, ← Text.byteLength_append, List.append_assoc]

/-- A body behind its header moves to a line of its own, and a member goes on the next one. -/
theorem exists_appendAfterInline (h : t.HasSlices) (hbody : body ∈ t.nodes) (eol : LineBreak)
    {indent : Text} (hindent : indent.all isIndent = true) (block : Text) :
    ∃ s r, t.appendAfterInline eol indent block body = .ok s ∧ s.apply t.source = .ok r ∧
      AddsAfter t.source eol block body body.stop r := by
  obtain ⟨front, gap, shown, blanks, back, hsource, hstart, hstop, hgap, hblanks, hlast, hsplice⟩ :=
    exists_appendAfterInline_eq h hbody
  refine ⟨_, _, hsplice eol indent block, ?_,
    .inline hsource hstart hstop hgap hblanks hlast hindent⟩
  have happly := Splice.apply_append front (gap ++ shown) (blanks ++ back)
    (eol.text ++ indent ++ shown ++ eol.text ++ block)
  rw [hsource]
  simpa using happly

/-- The cut of the source at which the search for the end of the last line starts. -/
theorem exists_lastLine_cut (h : t.HasSlices) (hbody : body ∈ t.nodes) :
    ∃ front after before rest, Text.cutAt t.source body.stop = .ok (front, after) ∧
      t.source = before ++ rest ∧
      (if body.start < body.stop ∧ front.getLast? = some '\n' then body.stop - 1 else body.stop) =
        byteLength before ∧
      Text.IsLineEnd t.source (body.start + byteLength (t.textOf body.node).dropLast)
        (byteLength (before ++ rest.takeWhile (· ≠ '\n'))) := by
  obtain ⟨front, back, hsource, hstart, hstop⟩ := exists_source_eq h hbody
  have hfree : ∀ s : Text, '\n' ∉ s.takeWhile (· ≠ '\n') := fun s hmem => by
    simpa using List.all_eq_true.1 List.all_takeWhile _ hmem
  have hafter : ∀ s : Text, ∀ c ∈ (s.dropWhile (· ≠ '\n')).head?, c = '\n' := fun s c hc => by
    simpa using Text.not_of_mem_head?_dropWhile hc
  have hback : back = back.takeWhile (· ≠ '\n') ++ back.dropWhile (· ≠ '\n') :=
    List.takeWhile_append_dropWhile.symm
  refine ⟨front ++ t.textOf body.node, back, ?_⟩
  rcases List.eq_nil_or_concat (t.textOf body.node) with htext | ⟨init, c, htext⟩
  · -- An empty body stands on the line around its offset.
    rw [htext, List.append_nil] at hsource hstop
    refine ⟨front, back, ?_, hsource, ?_, front, back.takeWhile (· ≠ '\n'),
      back.dropWhile (· ≠ '\n'), ?_, ?_, rfl, hfree back, hafter back⟩
    · rw [htext, List.append_nil, hsource, ← hstop, Text.cutAt_append]
    · rw [if_neg (by omega), hstop]
    · rw [List.append_assoc, ← hback, hsource]
    · rw [htext, hstart]
      rfl
  · rw [List.concat_eq_append] at htext
    rw [htext] at hsource hstop ⊢
    rw [List.dropLast_concat]
    have hcut : Text.cutAt t.source body.stop = .ok (front ++ (init ++ [c]), back) := by
      rw [hsource, ← hstop, Text.cutAt_append]
    have hsize : body.stop = byteLength (front ++ init) + c.utf8Size := by
      rw [← hstop, ← List.append_assoc, Text.byteLength_append (front ++ init)]
      rfl
    have hlast : (front ++ (init ++ [c])).getLast? = some c := by
      rw [← List.append_assoc, List.getLast?_concat]
    have hoffset : byteLength (front ++ init) = body.start + byteLength init := by
      rw [Text.byteLength_append, hstart]
    have hpos := Char.utf8Size_pos c
    by_cases hc : c = '\n'
    · -- The newline at the end of the body ends its last line.
      subst hc
      refine ⟨front ++ init, '\n' :: back, hcut, by simpa using hsource, ?_, front ++ init, [],
        '\n' :: back, by simpa using hsource, hoffset, by simp, by simp, by simp⟩
      rw [if_pos ⟨by omega, hlast⟩, hsize]
      rfl
    · -- The last line goes on behind the body, up to the next newline.
      refine ⟨front ++ (init ++ [c]), back, hcut, hsource, ?_, front ++ init,
        c :: back.takeWhile (· ≠ '\n'), back.dropWhile (· ≠ '\n'), ?_, hoffset, ?_, ?_, hafter back⟩
      · rw [if_neg fun h => hc (Option.some.inj (hlast.symm.trans h.2)), hstop]
      · rw [hsource]
        conv => lhs; rw [hback]
        simp
      · simp
      · rw [List.mem_cons, not_or]
        exact ⟨fun heq => hc heq.symm, hfree back⟩

/-- A member can be added after the last line of a body, in front of the break that ends it. -/
theorem exists_lastLineEnd (h : t.HasSlices) (hbody : body ∈ t.nodes) (eol : LineBreak)
    (block : Text) :
    ∃ stop offset r, t.lastLineEnd body = .ok stop ∧
      (Splice.insert stop (eol.text ++ block)).apply t.source = .ok r ∧
      Text.IsLineEnd t.source (body.start + byteLength (t.textOf body.node).dropLast) offset ∧
      AddsAfter t.source eol block body offset r := by
  obtain ⟨front, after, before, rest, hcut, hsource, hanchor, hend⟩ := exists_lastLine_cut h hbody
  -- The return of a pair is no part of the line.
  obtain ⟨line, ending, hline, hending, hstop⟩ : ∃ line ending,
      before ++ rest.takeWhile (· ≠ '\n') = line ++ ending ∧
        ((ending = [] ∧ line.getLast? ≠ some '\r') ∨ ending = ['\r']) ∧
        (if (before ++ rest.takeWhile (· ≠ '\n')).getLast? = some '\r' then
          byteLength (before ++ rest.takeWhile (· ≠ '\n')) - 1
        else byteLength (before ++ rest.takeWhile (· ≠ '\n'))) = byteLength line := by
    by_cases hlast : (before ++ rest.takeWhile (· ≠ '\n')).getLast? = some '\r'
    · obtain ⟨line, hline⟩ := List.getLast?_eq_some_iff.1 hlast
      refine ⟨line, ['\r'], hline, .inr rfl, ?_⟩
      rw [if_pos hlast, hline, Text.byteLength_append]
      exact Nat.add_sub_cancel ..
    · exact ⟨_, [], (List.append_nil _).symm, .inl ⟨rfl, hlast⟩, if_neg hlast⟩
  have hwhole : t.source = line ++ ending ++ rest.dropWhile (· ≠ '\n') := by
    rw [← hline, List.append_assoc, List.takeWhile_append_dropWhile, hsource]
  refine ⟨byteLength line, _, _, ?_, ?_, hend, .lastLine hwhole (by rw [hline]) hending⟩
  · have hlineEnd : Text.lineEnd t.source (byteLength before) =
        .ok (byteLength (before ++ rest.takeWhile (· ≠ '\n'))) := by
      rw [hsource, Text.lineEnd_append]
    have hcutEnd : Text.cutAt t.source (byteLength (before ++ rest.takeWhile (· ≠ '\n'))) =
        .ok (before ++ rest.takeWhile (· ≠ '\n'), rest.dropWhile (· ≠ '\n')) := by
      rw [hline, hwhole, Text.cutAt_append]
    simp only [lastLineEnd, hcut, hanchor, hlineEnd, hcutEnd, hstop, bind, Except.bind, pure,
      Except.pure]
  · have happly := Splice.apply_append line [] (ending ++ rest.dropWhile (· ≠ '\n'))
      (eol.text ++ block)
    rw [List.append_nil] at happly
    rwa [hwhole, List.append_assoc]

/-! ### At the end of a body -/

/-- Where a last member goes is said by the token that closes the body, and without one by what the
line of the body starts with. -/
theorem appendSplice_cases (h : t.HasSlices) (hbody : body ∈ t.nodes) {indent : Text}
    (hindent : t.memberIndent body = .ok indent) (content : Text) :
    (∃ closing, body.closingDelimiter? = some closing ∧
      t.appendSplice body content = t.appendBeforeClosing (.ofText t.source)
        (memberBlock content indent (.ofText t.source)) closing) ∨
    (body.closingDelimiter? = none ∧ Text.StartsLine t.source body.start ∧
      ∀ stop, t.lastLineEnd body = .ok stop → t.appendSplice body content =
        .ok (.insert stop ((LineBreak.ofText t.source).text ++
          memberBlock content indent (.ofText t.source)))) ∨
    (body.closingDelimiter? = none ∧ ¬ Text.StartsLine t.source body.start ∧
      t.appendSplice body content = t.appendAfterInline (.ofText t.source) indent
        (memberBlock content indent (.ofText t.source)) body) := by
  simp only [appendSplice, hindent, bind, Except.bind, pure, Except.pure]
  cases hclosing : body.closingDelimiter? with
  | some closing => exact .inl ⟨closing, rfl, rfl⟩
  | none =>
    obtain ⟨before, back, hsource, hstart, -⟩ := exists_source_eq h hbody
    -- Without a closing token it matters whether the body starts a line.
    obtain ⟨starts, hstarts, hiff⟩ :=
      Text.exists_startsLine_eq before (t.textOf body.node ++ back)
    rw [← List.append_assoc, ← hsource, hstart] at hstarts hiff
    simp only [hstarts]
    cases starts with
    | true =>
      refine .inr (.inl ⟨trivial, hiff.1 rfl, fun stop hstop => ?_⟩)
      simp only [if_true, hstop]
    | false =>
      refine .inr (.inr ⟨trivial, fun hplace => ?_, rfl⟩)
      cases hiff.2 hplace

end SyntaxTree

end SyntaxEdit
