/-
Why an edit fails.

An edit first looks for the node that it is about, and then cuts the source.  It is refused where
its path names no node, several, or one without a body.  Whatever else goes wrong is an invalid cut.

* `Edit.Refused` — the edits that are refused, and why;
* `refused_or_invalidRange`, `Refused.ne_invalidRange` — an edit that fails is refused, or one of
  its cuts is invalid, and never both;
* `textAfter_eq_ambiguousPath_iff` — an edit fails as ambiguous exactly where it takes its path for
  a semantic one and this has several matches.
-/
import SyntaxEdit.Proofs.AddressingAgreement

namespace SyntaxEdit

variable {t : SyntaxTree} {path : Text} {how : Addressing} {change : Edit} {e : EditError}

/-- A computation in two steps fails in the first or in the second. -/
theorem bind_eq_error_iff {ε α β : Type} {x : Except ε α} {f : α → Except ε β} {e : ε} :
    (x >>= f) = .error e ↔ x = .error e ∨ ∃ a, x = .ok a ∧ f a = .error e := by
  cases x <;> simp [bind, Except.bind]

/-! ### Paths that name no single node -/

namespace SyntaxTree

theorem onlyMatch?_eq_error_iff :
    t.onlyMatch? path = .error e ↔ 2 ≤ (t.findSemantic path).length ∧
      e = .ambiguousPath path ((t.findSemantic path).map SemanticMatch.description) := by
  constructor
  · intro h
    have hmany : 2 ≤ (t.findSemantic path).length := by
      match hfound : t.findSemantic path with
      | [] => simp [onlyMatch?, hfound] at h
      | [m] => simp [onlyMatch?, hfound] at h
      | first :: second :: others => simp
    rw [onlyMatch?_of_matches hmany] at h
    exact ⟨hmany, (Except.error.inj h).symm⟩
  · rintro ⟨hmany, rfl⟩
    exact onlyMatch?_of_matches hmany

/-- A path that names no single node names none, or has several matches. -/
theorem target_eq_error (h : t.target how path = .error e) :
    (∃ missing suggestions, e = .nodeNotFound missing suggestions) ∨
      how ≠ .structural ∧ t.onlyMatch? path = .error e := by
  -- A structural path fails in one way only.
  have hstructural : ∀ {text : Text}, t.structuralTarget text = .error e →
      ∃ missing suggestions, e = .nodeNotFound missing suggestions := by
    intro text htext
    rw [structuralTarget] at htext
    split at htext
    · cases htext
    · exact ⟨_, _, (Except.error.inj htext).symm⟩
  cases how with
  | structural => exact .inl (hstructural h)
  | semantic =>
    rcases bind_eq_error_iff.1 h with honly | ⟨named, -, h⟩
    · exact .inr ⟨by simp, honly⟩
    · cases named with
      | none => exact .inl ⟨_, _, (Except.error.inj h).symm⟩
      | some found => exact .inl (hstructural h)
  | either =>
    rcases bind_eq_error_iff.1 h with honly | ⟨named, -, h⟩
    · exact .inr ⟨by simp, honly⟩
    · -- However the node was looked up, it was found or not.
      dsimp only at h
      split at h
      · cases h
      · exact .inl ⟨_, _, (Except.error.inj h).symm⟩

theorem targetBody_eq_error (h : t.targetBody path = .error e) :
    e = .bodyNotFound path ∨ t.target .either path = .error e := by
  rcases bind_eq_error_iff.1 h with htarget | ⟨n, -, h⟩
  · exact .inr htarget
  · split at h
    · cases h
    · exact .inl (Except.error.inj h).symm

theorem target_ne_invalidRange (range : InvalidRange) :
    t.target how path ≠ .error (.invalidRange range) := by
  intro h
  rcases target_eq_error h with ⟨missing, suggestions, hmissing⟩ | ⟨-, honly⟩
  · cases hmissing
  · cases (onlyMatch?_eq_error_iff.1 honly).2

theorem targetBody_ne_invalidRange (range : InvalidRange) :
    t.targetBody path ≠ .error (.invalidRange range) := by
  intro h
  rcases targetBody_eq_error h with hnone | htarget
  · cases hnone
  · exact target_ne_invalidRange range htarget

theorem target_eq_ambiguousPath_iff {named : Text} {descriptions : List Text} :
    t.target how path = .error (.ambiguousPath named descriptions) ↔
      how ≠ .structural ∧ 2 ≤ (t.findSemantic path).length ∧ named = path ∧
        descriptions = (t.findSemantic path).map SemanticMatch.description := by
  constructor
  · intro h
    rcases target_eq_error h with ⟨missing, suggestions, hmissing⟩ | ⟨hhow, honly⟩
    · cases hmissing
    · obtain ⟨hmany, hsame⟩ := onlyMatch?_eq_error_iff.1 honly
      exact ⟨hhow, hmany, EditError.ambiguousPath.inj hsame⟩
  · rintro ⟨hhow, hmany, rfl, rfl⟩
    exact target_eq_of_matches hmany hhow

theorem targetBody_eq_ambiguousPath_iff {named : Text} {descriptions : List Text} :
    t.targetBody path = .error (.ambiguousPath named descriptions) ↔
      2 ≤ (t.findSemantic path).length ∧ named = path ∧
        descriptions = (t.findSemantic path).map SemanticMatch.description := by
  constructor
  · intro h
    rcases targetBody_eq_error h with hnone | htarget
    · cases hnone
    · exact (target_eq_ambiguousPath_iff.1 htarget).2
  · intro h
    exact bind_eq_error_iff.2 (.inl (target_eq_ambiguousPath_iff.2 ⟨by simp, h⟩))

end SyntaxTree

/-! ### Refusals -/

namespace Edit

/-- Whether an edit is refused, and why: its path names no single node, or a node without a body. -/
inductive Refused (t : SyntaxTree) : Edit → EditError → Prop
  | update {how : Addressing} {path content : Text} {e : EditError}
      (h : t.target how path = .error e) : Refused t (.update how path content) e
  | delete {how : Addressing} {path : Text} {e : EditError}
      (h : t.target how path = .error e) : Refused t (.delete how path) e
  | append {parent content : Text} {e : EditError} (hnamed : ¬ Text.isBlankText parent = true)
      (h : t.targetBody parent = .error e) : Refused t (.append parent content) e
  | insertBefore {parent content : Text} {types : List String} {e : EditError}
      (hnamed : ¬ Text.isBlankText parent = true) (h : t.targetBody parent = .error e) :
      Refused t (.insertBefore parent content types) e

theorem Refused.textAfter_eq (h : Refused t change e) : change.textAfter t = .error e := by
  cases h with
  | update h => exact bind_eq_error_iff.2 (.inl h)
  | delete h => exact bind_eq_error_iff.2 (.inl h)
  | append hnamed h =>
    rw [textAfter, SyntaxTree.appended, if_neg hnamed]
    exact bind_eq_error_iff.2 (.inl h)
  | insertBefore hnamed h =>
    rw [textAfter, SyntaxTree.insertedBefore, if_neg hnamed]
    exact bind_eq_error_iff.2 (.inl h)

theorem Refused.ne_invalidRange (h : Refused t change e) (range : InvalidRange) :
    e ≠ .invalidRange range := by
  rintro rfl
  cases h with
  | update h => exact SyntaxTree.target_ne_invalidRange range h
  | delete h => exact SyntaxTree.target_ne_invalidRange range h
  | append _ h => exact SyntaxTree.targetBody_ne_invalidRange range h
  | insertBefore _ h => exact SyntaxTree.targetBody_ne_invalidRange range h

theorem exists_invalidRange_of_inText {α : Type} {cuts : Except InvalidRange α}
    (h : inText cuts = .error e) : ∃ range, e = .invalidRange range := by
  cases cuts with
  | ok a => cases h
  | error range => exact ⟨range, (Except.error.inj h).symm⟩

/-- An edit that fails is refused, or one of its cuts is invalid. -/
theorem refused_or_invalidRange (h : change.textAfter t = .error e) :
    Refused t change e ∨ ∃ range, e = .invalidRange range := by
  -- Each edit first looks its node up and then cuts the text; lines can always be cut.
  cases change with
  | addLines after content => cases h
  | removeLines start stop => cases h
  | updateLine line content => cases h
  | update how path content =>
    rcases bind_eq_error_iff.1 h with htarget | ⟨n, -, hcuts⟩
    · exact .inl (.update htarget)
    · exact .inr (exists_invalidRange_of_inText hcuts)
  | delete how path =>
    rcases bind_eq_error_iff.1 h with htarget | ⟨n, -, hcuts⟩
    · exact .inl (.delete htarget)
    · exact .inr (exists_invalidRange_of_inText hcuts)
  | append parent content =>
    rw [textAfter, SyntaxTree.appended] at h
    split at h
    · cases h
    · rename_i hnamed
      rcases bind_eq_error_iff.1 h with hbody | ⟨body, -, hcuts⟩
      · exact .inl (.append hnamed hbody)
      · exact .inr (exists_invalidRange_of_inText hcuts)
  | insertBefore parent content types =>
    rw [textAfter, SyntaxTree.insertedBefore] at h
    split at h
    · cases h
    · rename_i hnamed
      rcases bind_eq_error_iff.1 h with hbody | ⟨body, -, hcuts⟩
      · exact .inl (.insertBefore hnamed hbody)
      · split at hcuts
        · exact .inr (exists_invalidRange_of_inText hcuts)
        · exact .inr (exists_invalidRange_of_inText hcuts)

/-! ### Ambiguous paths -/

/-- The text that an edit takes for a semantic path first, where it takes any. -/
def semanticPath? : Edit → Option Text
  | .addLines _ _ | .removeLines _ _ | .updateLine _ _ => none
  | .update how path _ | .delete how path => if how = .structural then none else some path
  | .append parent _ | .insertBefore parent _ _ =>
    if Text.isBlankText parent then none else some parent

theorem refused_ambiguousPath_iff {descriptions : List Text} :
    Refused t change (.ambiguousPath path descriptions) ↔
      change.semanticPath? = some path ∧ 2 ≤ (t.findSemantic path).length ∧
        descriptions = (t.findSemantic path).map SemanticMatch.description := by
  constructor
  · intro h
    cases h with
    | update h =>
      obtain ⟨hhow, hmany, rfl, hdescriptions⟩ := SyntaxTree.target_eq_ambiguousPath_iff.1 h
      exact ⟨if_neg hhow, hmany, hdescriptions⟩
    | delete h =>
      obtain ⟨hhow, hmany, rfl, hdescriptions⟩ := SyntaxTree.target_eq_ambiguousPath_iff.1 h
      exact ⟨if_neg hhow, hmany, hdescriptions⟩
    | append hnamed h =>
      obtain ⟨hmany, rfl, hdescriptions⟩ := SyntaxTree.targetBody_eq_ambiguousPath_iff.1 h
      exact ⟨if_neg hnamed, hmany, hdescriptions⟩
    | insertBefore hnamed h =>
      obtain ⟨hmany, rfl, hdescriptions⟩ := SyntaxTree.targetBody_eq_ambiguousPath_iff.1 h
      exact ⟨if_neg hnamed, hmany, hdescriptions⟩
  · rintro ⟨hpath, hmany, rfl⟩
    have htarget : ∀ {how : Addressing}, how ≠ .structural → t.target how path =
        .error (.ambiguousPath path ((t.findSemantic path).map SemanticMatch.description)) :=
      fun hhow => SyntaxTree.target_eq_of_matches hmany hhow
    have hbody : t.targetBody path =
        .error (.ambiguousPath path ((t.findSemantic path).map SemanticMatch.description)) :=
      SyntaxTree.targetBody_eq_ambiguousPath_iff.2 ⟨hmany, rfl, rfl⟩
    -- Edits of lines name no path, and the others look theirs up in one of two ways.
    cases change with
    | addLines after content => cases hpath
    | removeLines start stop => cases hpath
    | updateLine line content => cases hpath
    | update how own content =>
      obtain ⟨hhow, rfl⟩ := by simpa [semanticPath?] using hpath
      exact .update (htarget hhow)
    | delete how own =>
      obtain ⟨hhow, rfl⟩ := by simpa [semanticPath?] using hpath
      exact .delete (htarget hhow)
    | append parent content =>
      obtain ⟨hnamed, rfl⟩ := by simpa [semanticPath?] using hpath
      exact .append (by simp [hnamed]) hbody
    | insertBefore parent content types =>
      obtain ⟨hnamed, rfl⟩ := by simpa [semanticPath?] using hpath
      exact .insertBefore (by simp [hnamed]) hbody

/-- An edit fails as ambiguous exactly where it takes its path for a semantic one and this has
several matches. All of these are described. -/
theorem textAfter_eq_ambiguousPath_iff {descriptions : List Text} :
    change.textAfter t = .error (.ambiguousPath path descriptions) ↔
      change.semanticPath? = some path ∧ 2 ≤ (t.findSemantic path).length ∧
        descriptions = (t.findSemantic path).map SemanticMatch.description := by
  rw [← refused_ambiguousPath_iff]
  constructor
  · intro h
    rcases refused_or_invalidRange h with hrefused | ⟨range, hrange⟩
    · exact hrefused
    · cases hrange
  · exact Refused.textAfter_eq

end Edit

end SyntaxEdit
