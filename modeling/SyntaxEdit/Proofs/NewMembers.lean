/-
A new member loses nothing of a text and goes where it should.

* `SyntaxTree.MemberPlace` — the offset at which a last member of a body belongs;
* `AddsBefore.visible_eq`, `AddsAfter.visible_eq` — in each of the ways to add a block, all that was
  visible stays in order around the block;
* `exists_appendedTo` — every body takes a last member, at its place;
* `visible_newMember` — what appending and inserting make of the visible part of a text.
-/
import SyntaxEdit.Proofs.AddressingAgreement
import SyntaxEdit.Proofs.Placement
import SyntaxEdit.Proofs.VisibleText

namespace SyntaxEdit

open Text (byteLength visible)

/-! ### Nothing is lost -/

variable {source block r : Text} {eol : LineBreak}

theorem AddsBefore.visible_eq {offset : Nat} (h : AddsBefore source eol block offset r) :
    ∃ front back, source = front ++ back ∧ byteLength front = offset ∧
      visible r = visible front ++ visible block ++ visible back := by
  cases h with
  | @ownLine front indent back hsource hoffset _ hindent =>
    refine ⟨front ++ indent, back, hsource, hoffset, ?_⟩
    simp [Text.visible_of_all_isIndent hindent]
  | @brokenLine front gap back indent hsource hoffset hgap hindent =>
    refine ⟨front ++ gap, back, hsource, hoffset, ?_⟩
    simp [Text.visible_of_all_isIndent hgap, Text.visible_of_all_isIndent hindent]

theorem AddsAfter.visible_eq {body : Located} {offset : Nat}
    (h : AddsAfter source eol block body offset r) :
    ∃ front back, source = front ++ back ∧ byteLength front = offset ∧
      visible r = visible front ++ visible block ++ visible back := by
  cases h with
  | @inline front gap shown blanks back indent hsource _ hstop hgap hblanks _ hindent =>
    refine ⟨front ++ gap ++ (shown ++ blanks), back, hsource, hstop, ?_⟩
    simp [Text.visible_of_all_isIndent hgap, Text.visible_of_all_isIndent hindent,
      Text.visible_eq_nil_iff.2 hblanks]
  | @lastLine front ending back _ hsource hoffset hending =>
    refine ⟨front ++ ending, back, hsource, hoffset, ?_⟩
    have hblank : visible ending = [] := by
      rcases hending with ⟨rfl, -⟩ | rfl <;> decide
    simp [hblank]

namespace SyntaxTree

variable {t : SyntaxTree} {body : Located}

/-! ### The place of a last member -/

/-- The offset at which a last member of a body belongs: in front of the token that closes the body;
without one, right behind a body that stands behind its header, and otherwise at the end of the line
that the last character of the body stands on. -/
inductive MemberPlace (t : SyntaxTree) (body : Located) : Nat → Prop
  | closing {token : Located} (h : body.closingDelimiter? = some token) :
      MemberPlace t body token.start
  | behindHeader (h : body.closingDelimiter? = none)
      (hstart : ¬ Text.StartsLine t.source body.start) : MemberPlace t body body.stop
  | lastLine {offset : Nat} (h : body.closingDelimiter? = none)
      (hstart : Text.StartsLine t.source body.start)
      (hend : Text.IsLineEnd t.source (body.start + byteLength (t.textOf body.node).dropLast)
        offset) : MemberPlace t body offset

theorem MemberPlace.eq_of_closing {place : Nat} {token : Located}
    (hplace : t.MemberPlace body place) (h : body.closingDelimiter? = some token) :
    place = token.start := by
  cases hplace with
  | closing htoken => exact congrArg Located.start (Option.some.inj (htoken.symm.trans h))
  | behindHeader hnone => cases hnone.symm.trans h
  | lastLine hnone => cases hnone.symm.trans h

/-- **Every body takes a last member**, at its place. -/
theorem exists_appendedTo (h : t.HasSlices) (hunit : t.pack.indentUnit.all isIndent = true)
    (hbody : body ∈ t.nodes) (content : Text) :
    ∃ indent place r, indent.all isIndent = true ∧ t.appendedTo body content = .ok r ∧
      t.MemberPlace body place ∧
      ((∃ closing, body.closingDelimiter? = some closing ∧ place = closing.start ∧
          AddsBefore t.source (.ofText t.source) (memberBlock content indent (.ofText t.source))
            place r) ∨
        AddsAfter t.source (.ofText t.source) (memberBlock content indent (.ofText t.source)) body
          place r) := by
  obtain ⟨indent, hindent, hall⟩ := exists_memberIndent h hunit hbody
  refine ⟨indent, ?_⟩
  rw [appendedTo]
  -- One place for each shape of a body: by its closing token, its last line or its header.
  rcases appendSplice_cases h hbody hindent content with ⟨closing, hclosing, hsplice⟩ |
    ⟨hclosing, hstarts, hsplice⟩ | ⟨hclosing, hstarts, hsplice⟩
  · obtain ⟨s, r, hs, hr, hadds⟩ := exists_appendBeforeClosing h
      (mem_nodes_of_closingDelimiter? hbody hclosing) (.ofText t.source)
      (memberBlock content indent (.ofText t.source))
    simp only [hsplice, hs, hr, inText, bind, Except.bind]
    exact ⟨closing.start, r, hall, rfl, .closing hclosing, .inl ⟨closing, hclosing, rfl, hadds⟩⟩
  · obtain ⟨stop, offset, r, hstop, hr, hend, hadds⟩ := exists_lastLineEnd h hbody
      (.ofText t.source) (memberBlock content indent (.ofText t.source))
    simp only [hsplice stop hstop, hr, inText, bind, Except.bind]
    exact ⟨offset, r, hall, rfl, .lastLine hclosing hstarts hend, .inr hadds⟩
  · obtain ⟨s, r, hs, hr, hadds⟩ := exists_appendAfterInline h hbody (.ofText t.source) hall
      (memberBlock content indent (.ofText t.source))
    simp only [hsplice, hs, hr, inText, bind, Except.bind]
    exact ⟨body.stop, r, hall, rfl, .behindHeader hclosing hstarts, .inr hadds⟩

/-- **Appending and inserting lose nothing and put the new member in its place.** -/
theorem visible_newMember (h : t.HasSlices) (hunit : t.pack.indentUnit.all isIndent = true)
    (parent content : Text) (types : List String) :
    (Text.isBlankText parent = true →
      ∃ r, (Edit.append parent content).textAfter t = .ok r ∧
        (Edit.insertBefore parent content types).textAfter t = .ok r ∧
        visible r = visible t.source ++ visible content) ∧
    (Text.isBlankText parent = false →
      (∀ e, t.targetBody parent = .error e →
        (Edit.append parent content).textAfter t = .error e ∧
          (Edit.insertBefore parent content types).textAfter t = .error e) ∧
      ∀ body, t.targetBody parent = .ok body →
        (∃ front back r, t.source = front ++ back ∧ t.MemberPlace body (byteLength front) ∧
          (Edit.append parent content).textAfter t = .ok r ∧
          visible r = visible front ++ visible content ++ visible back) ∧
        (∀ anchor, body.namedChildren.find? (fun child => types.contains child.type) = some anchor →
          ∃ front back r, t.source = front ++ back ∧ byteLength front = anchor.start ∧
            (Edit.insertBefore parent content types).textAfter t = .ok r ∧
            visible r = visible front ++ visible content ++ visible back) ∧
        (body.namedChildren.find? (fun child => types.contains child.type) = none →
          (Edit.insertBefore parent content types).textAfter t =
            (Edit.append parent content).textAfter t)) := by
  refine ⟨fun hblank => ?_, fun hblank => ⟨fun e he => ?_, fun body hbody => ⟨?_, ?_, ?_⟩⟩⟩
  · refine ⟨appendToEnd t.source content, ?_, ?_, visible_appendToEnd _ _⟩
    · simp only [Edit.textAfter, appended, hblank, if_true]
    · simp only [Edit.textAfter, insertedBefore, hblank, if_true]
  · simp [Edit.textAfter, appended, insertedBefore, hblank, he, bind, Except.bind]
  · have hmem := mem_nodes_of_targetBody hbody
    obtain ⟨indent, place, r, hall, hr, hplace, hadds⟩ := exists_appendedTo h hunit hmem content
    -- Whatever is added around the block is blank, before a token as well as behind a line.
    obtain ⟨front, back, hsource, hfront, hvisible⟩ : ∃ front back, t.source = front ++ back ∧
        byteLength front = place ∧ visible r = visible front ++
          visible (memberBlock content indent (.ofText t.source)) ++ visible back := by
      rcases hadds with ⟨closing, -, -, hadds⟩ | hadds
      · exact hadds.visible_eq
      · exact hadds.visible_eq
    rw [visible_memberBlock hall] at hvisible
    refine ⟨front, back, r, hsource, by rwa [hfront], ?_, hvisible⟩
    simp [Edit.textAfter, appended, hblank, hbody, hr, bind, Except.bind]
  · intro anchor hanchor
    have hmem := mem_nodes_of_targetBody hbody
    obtain ⟨indent, s, r, hall, hs, hr, hadds⟩ := exists_insertSplice h hunit hmem
      (mem_nodes_of_mem_namedChildren hmem (List.mem_of_find?_eq_some hanchor)) content
    obtain ⟨front, back, hsource, hfront, hvisible⟩ := hadds.visible_eq
    rw [visible_memberBlock hall] at hvisible
    refine ⟨front, back, r, hsource, hfront, ?_, hvisible⟩
    simp only [Edit.textAfter, insertedBefore, hblank, hbody, hanchor, hs, hr, inText, bind,
      Except.bind]
    rfl
  · intro hnone
    simp only [Edit.textAfter, appended, insertedBefore, hblank, hbody, hnone, bind, Except.bind]

/-- A tree of one class whose braces stand around a gap. -/
def ofOneClass (gap : Text) : SyntaxTree where
  root :=
    .mk ⟨"program", true, false, false, false, 0, 11 + byteLength gap, none⟩
      [.mk ⟨"class_declaration", true, false, false, false, 0, 11 + byteLength gap, none⟩
        [.mk ⟨"class", false, false, false, false, 0, 5, none⟩ [],
          .mk ⟨"identifier", true, false, false, false, 6, 8, some "name"⟩ [],
          .mk ⟨"class_body", true, false, false, false, 9, 11 + byteLength gap, some "body"⟩
            [.mk ⟨"\x7b", false, false, false, false, 9, 10, none⟩ [],
              .mk ⟨"\x7d", false, false, false, false, 10 + byteLength gap, 11 + byteLength gap,
                none⟩ []]]]
  broken := false
  source := "class É \x7b".toList ++ gap ++ "\x7d".toList
  pack := (LanguagePack.plain "javascript" .javascript).withBodyRules
    [("class_declaration", [.field "body"])]

/-- The body of the class, found by the path of the class. -/
theorem targetBody_ofOneClass (gap : Text)
    (h : ((ofOneClass gap).findSemantic "program[0]/class_declaration[0]".toList).length = 0) :
    (ofOneClass gap).targetBody "program[0]/class_declaration[0]".toList =
      .ok ⟨[0, 2],
        .mk ⟨"class_body", true, false, false, false, 9, 11 + byteLength gap, some "body"⟩
        [.mk ⟨"\x7b", false, false, false, false, 9, 10, none⟩ [],
          .mk ⟨"\x7d", false, false, false, false, 10 + byteLength gap, 11 + byteLength gap,
            none⟩ []]⟩ := by
  rw [targetBody, target_either_of_no_match (List.eq_nil_of_length_eq_zero h)]
  rfl

/-- A method is added between the braces of a class, in front of the closing one. -/
theorem visible_newMember_closingBrace :
    ∃ r, (Edit.append "program[0]/class_declaration[0]".toList "m() {}".toList).textAfter
        (ofOneClass "\n".toList) = .ok r ∧
      visible r = "classÉ\x7bm()\x7b\x7d".toList ++ "\x7d".toList ∧
      (Edit.insertBefore "program[0]/class_declaration[0]".toList "m() {}".toList []).textAfter
        (ofOneClass "\n".toList) = .ok r := by
  have hbody := targetBody_ofOneClass "\n".toList (by decide +kernel)
  obtain ⟨-, hnamed⟩ := visible_newMember (t := ofOneClass "\n".toList) (by decide) (by decide)
    "program[0]/class_declaration[0]".toList "m() {}".toList []
  obtain ⟨⟨front, back, r, hsource, hplace, hr, hvisible⟩, -, hsame⟩ :=
    (hnamed (by decide)).2 _ hbody
  have hoffset : byteLength front = byteLength "class É \x7b\n".toList := hplace.eq_of_closing rfl
  obtain ⟨rfl, rfl⟩ := Text.append_inj_of_byteLength hsource.symm hoffset
  exact ⟨r, hr, hvisible, (hsame rfl).trans hr⟩

end SyntaxTree

end SyntaxEdit
