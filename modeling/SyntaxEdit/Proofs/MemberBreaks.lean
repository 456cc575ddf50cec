/-
The line breaks of a text to which a member is added.

* `Text.hasOnlyBreaks` — a text that breaks its lines in one way only;
* `hasOnlyBreaks_memberBlock`, `hasOnlyBreaks_appendToEnd` — content is written with that break;
* `AddsBefore.hasOnlyBreaks`, `AddsAfter.hasOnlyBreaks` — no place for a member splits a pair of
  carriage return and newline, unless the node that it goes by does;
* `hasPairedBreaks_newMember` — what appending and inserting make of the line breaks of a text.
-/
import SyntaxEdit.Proofs.IndentedLines
import SyntaxEdit.Proofs.LineBreaks
import SyntaxEdit.Proofs.NewMembers

namespace SyntaxEdit

open Text (byteLength hasPairedBreaks hasClosedReturns splitsPair)

/-! ### One way to break lines -/

namespace Text

/-- Whether a text breaks its lines in one way only: by carriage return and newline, or without any
carriage return. -/
def hasOnlyBreaks (eol : LineBreak) (t : Text) : Bool :=
  match eol with
  | .newline => !t.contains '\r'
  | .returnNewline => hasPairedBreaks t

variable {eol : LineBreak} {s t : Text}

theorem hasOnlyBreaks_newline_iff : hasOnlyBreaks .newline t = true ↔ '\r' ∉ t := by
  simp [hasOnlyBreaks]

theorem hasOnlyBreaks_append (hs : hasOnlyBreaks eol s = true) (ht : hasOnlyBreaks eol t = true) :
    hasOnlyBreaks eol (s ++ t) = true := by
  cases eol with
  | newline =>
    rw [hasOnlyBreaks_newline_iff] at *
    simp [hs, ht]
  | returnNewline => exact hasPairedBreaks_append hs ht

/-- A text can be cut wherever no pair is split. -/
theorem hasOnlyBreaks_of_append (h : hasOnlyBreaks eol (s ++ t) = true)
    (hcut : s.getLast? = some '\r' → t.head? ≠ some '\n') :
    hasOnlyBreaks eol s = true ∧ hasOnlyBreaks eol t = true := by
  cases eol with
  | newline =>
    rw [hasOnlyBreaks_newline_iff, List.mem_append, not_or] at h
    rwa [hasOnlyBreaks_newline_iff, hasOnlyBreaks_newline_iff]
  | returnNewline => exact hasPairedBreaks_of_append h hcut

/-- Trimming breaks off the end of a text splits no pair. -/
theorem hasOnlyBreaks_trimEndWhile (h : hasOnlyBreaks eol t = true) :
    hasOnlyBreaks eol (trimEndWhile isBreak t) = true := by
  rw [← trimEndWhile_append_takeEndWhile isBreak t] at h
  refine (hasOnlyBreaks_of_append h fun hlast => ?_).1
  cases not_of_mem_getLast?_trimEndWhile hlast

theorem hasOnlyBreaks_text (eol : LineBreak) : hasOnlyBreaks eol eol.text = true := by
  cases eol <;> rfl

theorem hasOnlyBreaks_of_all_isIndent (h : t.all isIndent = true) : hasOnlyBreaks eol t = true := by
  have hbreak : ∀ c ∈ t, isBreak c = false := by
    intro c hc
    rcases Bool.or_eq_true_iff.1 (List.all_eq_true.1 h c hc) with h | h <;>
      rw [of_decide_eq_true h] <;> decide
  cases eol with
  | newline => exact hasOnlyBreaks_newline_iff.2 fun hmem => by cases hbreak _ hmem
  | returnNewline => exact hasPairedBreaks_of_forall hbreak

/-- Plain newlines can be written in either way. -/
theorem hasOnlyBreaks_withBreaks (eol : LineBreak) (h : '\r' ∉ t) :
    hasOnlyBreaks eol (withBreaks eol t) = true := by
  cases eol with
  | newline =>
    rw [withBreaks_newline]
    exact hasOnlyBreaks_newline_iff.2 h
  | returnNewline => exact hasPairedBreaks_withBreaks h

end Text

open Text (hasOnlyBreaks hasOnlyBreaks_append)

variable {content linePrefix : Text} {eol : LineBreak}

/-! ### Content -/

theorem dedentLine_subset (width : Nat) (line : Text) : dedentLine width line ⊆ line := by
  rw [dedentLine]
  split
  · exact List.nil_subset _
  · exact fun c hc => List.drop_subset _ _ ((Text.trimEndWhile_isPrefix isBlank _).subset hc)

/-- The lines of a dedented block are joined by plain newlines. -/
theorem return_not_mem_dedent (h : hasClosedReturns content = true) : '\r' ∉ dedent content := by
  intro hmem
  rcases Text.mem_of_mem_joinWith hmem with hmem | ⟨line, hline, hmem⟩
  · exact absurd hmem (by decide)
  · obtain ⟨row, hrow, rfl⟩ := List.mem_map.1 hline
    exact Text.return_not_mem_of_mem_rows h (mem_of_mem_innerLines hrow)
      (dedentLine_subset _ _ hmem)

theorem return_not_mem_indentBy (hindent : linePrefix.all isIndent = true) (h : '\r' ∉ content) :
    '\r' ∉ indentBy linePrefix content := by
  intro hmem
  rcases Text.mem_of_mem_joinWith hmem with hmem | ⟨line, hline, hmem⟩
  · exact absurd hmem (by decide)
  · obtain ⟨piece, hpiece, rfl⟩ := List.mem_map.1 hline
    split at hmem
    · cases hmem
    · rcases List.mem_append.1 hmem with hmem | hmem
      · exact absurd (List.all_eq_true.1 hindent _ hmem) (by decide)
      · exact h (Text.subset_of_mem_splitOn hpiece hmem)

/-- A new member is written with the break it is given. -/
theorem hasOnlyBreaks_memberBlock (hindent : linePrefix.all isIndent = true)
    (h : hasClosedReturns content = true) (eol : LineBreak) :
    hasOnlyBreaks eol (memberBlock content linePrefix eol) = true :=
  Text.hasOnlyBreaks_withBreaks eol (return_not_mem_indentBy hindent (return_not_mem_dedent h))

/-- Content at the end of a text is written with the break of the text. -/
theorem hasOnlyBreaks_appendToEnd {t : Text} (ht : hasOnlyBreaks (.ofText t) t = true)
    (h : hasClosedReturns content = true) :
    hasOnlyBreaks (.ofText t) (appendToEnd t content) = true := by
  -- Trimming breaks cannot split a pair: in front all breaks go, and at the end no return stays
  -- as the last character.
  have htrimmed :
      hasClosedReturns (Text.trimEndWhile isBreak (content.dropWhile isBreak)) = true := by
    rw [← List.takeWhile_append_dropWhile (p := isBreak) (l := content)] at h
    have hback := Text.hasClosedReturns_of_append h
    rw [← Text.trimEndWhile_append_takeEndWhile isBreak (content.dropWhile isBreak)] at hback
    refine Text.hasClosedReturns_of_append_left hback fun hlast => ?_
    cases Text.not_of_mem_getLast?_trimEndWhile hlast
  have haddition := Text.hasOnlyBreaks_withBreaks (.ofText t)
    (Text.return_not_mem_unifyBreaks htrimmed)
  have hbase := Text.hasOnlyBreaks_trimEndWhile ht
  have heol := Text.hasOnlyBreaks_text (.ofText t)
  rw [appendToEnd]
  split
  · exact hasOnlyBreaks_append haddition heol
  · have hgap := hasOnlyBreaks_append (hasOnlyBreaks_append hbase heol) heol
    exact hasOnlyBreaks_append (hasOnlyBreaks_append hgap haddition) heol

/-! ### Places -/

section Places

variable {source block r : Text} {offset : Nat}

/-- A block in front of an offset keeps the breaks, if the offset splits no pair. -/
theorem AddsBefore.hasOnlyBreaks (h : AddsBefore source eol block offset r)
    (hsource : Text.hasOnlyBreaks eol source = true) (hblock : Text.hasOnlyBreaks eol block = true)
    (hcut : splitsPair source offset = false) : Text.hasOnlyBreaks eol r = true := by
  have heol := Text.hasOnlyBreaks_text eol
  cases h with
  | @ownLine front indent back heq _ hfront _ =>
    rw [heq, List.append_assoc] at hsource
    obtain ⟨hbefore, hafter⟩ := Text.hasOnlyBreaks_of_append hsource fun hlast => by
      cases hfront _ hlast
    have hlines := hasOnlyBreaks_append hblock heol
    exact hasOnlyBreaks_append (hasOnlyBreaks_append hbefore hlines) hafter
  | @brokenLine front gap back indent heq hoffset hgap hindent =>
    rw [heq] at hsource hcut
    rw [← hoffset] at hcut
    obtain ⟨hbefore, hafter⟩ :=
      Text.hasOnlyBreaks_of_append hsource (Text.head?_ne_of_splitsPair_eq_false hcut)
    -- The blanks before the offset go, and hold no newline.
    obtain ⟨hfront, -⟩ := Text.hasOnlyBreaks_of_append hbefore fun _ hhead =>
      Text.newline_not_mem_of_all_isIndent hgap (List.mem_of_mem_head? hhead)
    have hlines := hasOnlyBreaks_append (hasOnlyBreaks_append heol hblock) heol
    have hbroken := hasOnlyBreaks_append hlines (Text.hasOnlyBreaks_of_all_isIndent hindent)
    exact hasOnlyBreaks_append (hasOnlyBreaks_append hfront hbroken) hafter

/-- A block after a body keeps the breaks, if the body does not start within a pair. -/
theorem AddsAfter.hasOnlyBreaks {body : Located} (h : AddsAfter source eol block body offset r)
    (hsource : Text.hasOnlyBreaks eol source = true) (hblock : Text.hasOnlyBreaks eol block = true)
    (hcut : splitsPair source body.start = false) : Text.hasOnlyBreaks eol r = true := by
  have heol := Text.hasOnlyBreaks_text eol
  cases h with
  | @inline front gap shown blanks back indent heq hstart _ hgap _ hshown hindent =>
    rw [heq, List.append_assoc] at hsource hcut
    rw [← hstart] at hcut
    obtain ⟨hbefore, hbody⟩ :=
      Text.hasOnlyBreaks_of_append hsource (Text.head?_ne_of_splitsPair_eq_false hcut)
    obtain ⟨hfront, -⟩ := Text.hasOnlyBreaks_of_append hbefore fun _ hhead =>
      Text.newline_not_mem_of_all_isIndent hgap (List.mem_of_mem_head? hhead)
    -- What is shown of the body ends in no white space, so not in a carriage return.
    rw [List.append_assoc] at hbody
    obtain ⟨hshown, hafter⟩ := Text.hasOnlyBreaks_of_append hbody fun hlast => by
      cases hshown _ hlast
    have hmoved := hasOnlyBreaks_append
      (hasOnlyBreaks_append heol (Text.hasOnlyBreaks_of_all_isIndent hindent)) hshown
    have hlines := hasOnlyBreaks_append (hasOnlyBreaks_append hmoved heol) hblock
    exact hasOnlyBreaks_append (hasOnlyBreaks_append hfront hlines) hafter
  | @lastLine front ending back _ heq _ hending =>
    rw [heq, List.append_assoc] at hsource
    obtain ⟨hfront, hafter⟩ := Text.hasOnlyBreaks_of_append hsource fun hlast => by
      rcases hending with ⟨-, hreturn⟩ | rfl
      · exact absurd hlast hreturn
      · simp
    have hlines := hasOnlyBreaks_append heol hblock
    exact hasOnlyBreaks_append (hasOnlyBreaks_append hfront hlines) hafter

end Places

/-! ### Trees -/

namespace SyntaxTree

variable {t : SyntaxTree} {body : Located} {parent r : Text}

/-- The body that a new member of a parent goes into. Below a blank parent, it goes to the end of
the text. -/
def memberBody? (t : SyntaxTree) (parent : Text) : Option Located :=
  if Text.isBlankText parent then none else (t.targetBody parent).toOption

/-- Whether neither end of a node stands between a carriage return and its newline. -/
def CutsNoPair (t : SyntaxTree) (n : Located) : Prop :=
  splitsPair t.source n.start = false ∧ splitsPair t.source n.stop = false

theorem cutsNoPair_of_return_not_mem (h : '\r' ∉ t.source) (n : Located) : t.CutsNoPair n :=
  ⟨Text.splitsPair_of_return_not_mem h _, Text.splitsPair_of_return_not_mem h _⟩

theorem hasOnlyBreaks_appendedTo (h : t.HasSlices) (hunit : t.pack.indentUnit.all isIndent = true)
    (hsource : hasOnlyBreaks (.ofText t.source) t.source = true)
    (hcontent : hasClosedReturns content = true) (hmem : body ∈ t.nodes) (hbody : t.CutsNoPair body)
    (hlast : ∀ last ∈ body.children.getLast?, t.CutsNoPair last)
    (hr : t.appendedTo body content = .ok r) : hasOnlyBreaks (.ofText t.source) r = true := by
  obtain ⟨indent, place, r', hindent, hr', -, hadds⟩ := exists_appendedTo h hunit hmem content
  obtain rfl := Except.ok.inj (hr.symm.trans hr')
  have hblock := hasOnlyBreaks_memberBlock hindent hcontent (.ofText t.source)
  rcases hadds with ⟨closing, hclosing, rfl, hadds⟩ | hadds
  · have hcut := hlast closing (Option.eq_some_of_filter_eq_some hclosing)
    exact hadds.hasOnlyBreaks hsource hblock hcut.1
  · exact hadds.hasOnlyBreaks hsource hblock hbody.1

/-- Appending and inserting keep the one way in which a text breaks its lines. -/
theorem hasOnlyBreaks_newMember (h : t.HasSlices) (hunit : t.pack.indentUnit.all isIndent = true)
    (hsource : hasOnlyBreaks (.ofText t.source) t.source = true)
    (hcontent : hasClosedReturns content = true) (types : List String)
    (hbody : ∀ body ∈ t.memberBody? parent, t.CutsNoPair body ∧
      ∀ last ∈ body.children.getLast?, t.CutsNoPair last) :
    (∀ r, t.appended parent content = .ok r → hasOnlyBreaks (.ofText t.source) r = true) ∧
    ((∀ body ∈ t.memberBody? parent,
        ∀ anchor ∈ body.namedChildren.find? (fun child => types.contains child.type),
          t.CutsNoPair anchor) →
      ∀ r, t.insertedBefore parent content types = .ok r →
        hasOnlyBreaks (.ofText t.source) r = true) := by
  by_cases hblank : Text.isBlankText parent = true
  · have hend := hasOnlyBreaks_appendToEnd hsource hcontent
    simp only [appended, insertedBefore, hblank, if_true, Except.ok.injEq, forall_eq', hend,
      implies_true, and_self]
  · simp only [memberBody?, appended, insertedBefore, if_neg hblank] at hbody ⊢
    cases htarget : t.targetBody parent with
    | error e => simp [bind, Except.bind]
    | ok body =>
      have hmem := mem_nodes_of_targetBody htarget
      obtain ⟨hcut, hlast⟩ := hbody body (by rw [htarget]; rfl)
      -- Inserting without an anchor is appending, so this serves both.
      have happended : ∀ r, t.appendedTo body content = .ok r →
          hasOnlyBreaks (.ofText t.source) r = true :=
        fun r => hasOnlyBreaks_appendedTo h hunit hsource hcontent hmem hcut hlast
      refine ⟨happended, fun hanchor r hr => ?_⟩
      simp only [bind, Except.bind] at hr
      cases hfind : body.namedChildren.find? (fun child => types.contains child.type) with
      | none =>
        rw [hfind] at hr
        exact happended r hr
      | some anchor =>
        obtain ⟨indent, s, r', hindent, hs, hr', hadds⟩ := exists_insertSplice h hunit hmem
          (mem_nodes_of_mem_namedChildren hmem (List.mem_of_find?_eq_some hfind)) content
        simp only [hfind, hs, hr', inText, Except.ok.injEq] at hr
        subst hr
        exact hadds.hasOnlyBreaks hsource (hasOnlyBreaks_memberBlock hindent hcontent _)
          (hanchor body rfl anchor hfind).1

/-- **Appending and inserting keep the line breaks of a text.** Pairs stay pairs, unless a node that
the new member goes by splits one, and a text without carriage returns gets none. -/
theorem hasPairedBreaks_newMember (h : t.HasSlices) (hunit : t.pack.indentUnit.all isIndent = true)
    (hcontent : hasClosedReturns content = true) (parent : Text) (types : List String) :
    (hasPairedBreaks t.source = true → '\n' ∈ t.source →
      (∀ body ∈ t.memberBody? parent, t.CutsNoPair body ∧
        ∀ last ∈ body.children.getLast?, t.CutsNoPair last) →
      (∀ r, (Edit.append parent content).textAfter t = .ok r → hasPairedBreaks r = true) ∧
      ((∀ body ∈ t.memberBody? parent,
          ∀ anchor ∈ body.namedChildren.find? (fun child => types.contains child.type),
            t.CutsNoPair anchor) →
        ∀ r, (Edit.insertBefore parent content types).textAfter t = .ok r →
          hasPairedBreaks r = true)) ∧
    ('\r' ∉ t.source → ∀ change ∈ [Edit.append parent content, .insertBefore parent content types],
      ∀ r, change.textAfter t = .ok r → '\r' ∉ r) := by
  constructor
  · -- The break that is put in is the one the source has: a pair here.
    intro hpaired hbreak hbody
    have heol := Text.ofText_of_hasPairedBreaks hpaired hbreak
    have hkeeps :=
      hasOnlyBreaks_newMember h hunit (by rw [heol]; exact hpaired) hcontent types hbody
    rwa [heol] at hkeeps
  · -- Without a return nothing can be cut apart, so the conditions on cuts hold by themselves.
    intro hreturn
    have heol := Text.ofText_of_return_not_mem hreturn
    have hcuts := cutsNoPair_of_return_not_mem hreturn
    obtain ⟨happend, hinsert⟩ := hasOnlyBreaks_newMember h hunit
      (by rw [heol]; exact Text.hasOnlyBreaks_newline_iff.2 hreturn) hcontent types
      fun body (_ : body ∈ t.memberBody? parent) => ⟨hcuts body, fun last _ => hcuts last⟩
    simp only [heol, Text.hasOnlyBreaks_newline_iff] at happend hinsert
    rw [List.forall_mem_cons, List.forall_mem_singleton]
    exact ⟨happend, hinsert fun _ _ anchor _ => hcuts anchor⟩

/-- A method with pairs of carriage return and newline goes into a class with pairs, and into one
with plain newlines. -/
theorem hasPairedBreaks_newMember_emptyClass :
    hasPairedBreaks "class É \x7b\r\n    m() \x7b\r\n    \x7d\r\n\x7d".toList = true ∧
      (Edit.append "program[0]/class_declaration[0]".toList "m() \x7b\r\n\x7d".toList).textAfter
        (ofOneClass "\r\n".toList) =
          .ok "class É \x7b\r\n    m() \x7b\r\n    \x7d\r\n\x7d".toList ∧
      '\r' ∉ "class É \x7b\n    m() \x7b\n    \x7d\n\x7d".toList ∧
      (Edit.append "program[0]/class_declaration[0]".toList "m() \x7b\r\n\x7d".toList).textAfter
        (ofOneClass "\n".toList) =
          .ok "class É \x7b\n    m() \x7b\n    \x7d\n\x7d".toList := by
  have hblank : ¬ Text.isBlankText "program[0]/class_declaration[0]".toList = true := by decide
  have hcontent : hasClosedReturns "m() \x7b\r\n\x7d".toList = true := by decide
  obtain ⟨hpairs, -⟩ := hasPairedBreaks_newMember (t := ofOneClass "\r\n".toList) (by decide)
    (by decide) hcontent "program[0]/class_declaration[0]".toList []
  obtain ⟨-, hreturns⟩ := hasPairedBreaks_newMember (t := ofOneClass "\n".toList) (by decide)
    (by decide) hcontent "program[0]/class_declaration[0]".toList []
  have hbody := targetBody_ofOneClass "\r\n".toList (by decide +kernel)
  have hbody' := targetBody_ofOneClass "\n".toList (by decide +kernel)
  have hpaired : (Edit.append "program[0]/class_declaration[0]".toList
      "m() \x7b\r\n\x7d".toList).textAfter (ofOneClass "\r\n".toList) =
        .ok "class É \x7b\r\n    m() \x7b\r\n    \x7d\r\n\x7d".toList := by
    rw [Edit.textAfter, appended, if_neg hblank, hbody]
    rfl
  have hplain : (Edit.append "program[0]/class_declaration[0]".toList
      "m() \x7b\r\n\x7d".toList).textAfter (ofOneClass "\n".toList) =
        .ok "class É \x7b\n    m() \x7b\n    \x7d\n\x7d".toList := by
    rw [Edit.textAfter, appended, if_neg hblank, hbody']
    rfl
  refine ⟨(hpairs (by decide) (by decide) ?_).1 _ hpaired, hpaired,
    hreturns (by decide) _ List.mem_cons_self _ hplain, hplain⟩
  intro body hmember
  rw [memberBody?, if_neg hblank, hbody] at hmember
  obtain rfl := Option.some.inj hmember
  refine ⟨⟨by decide, by decide⟩, fun last hlast => ?_⟩
  obtain rfl := Option.some.inj hlast
  exact ⟨by decide, by decide⟩

end SyntaxTree

end SyntaxEdit
