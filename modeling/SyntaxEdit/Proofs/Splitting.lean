/-
Splitting a text at a character.

* `not_mem_of_mem_splitOn` — no piece has the separator in it;
* `splitOn_append_cons` — a text without the separator is cut off at the separator behind it;
* `splitOn_joinWith` — pieces without separators are what their join is split into;
* `joinWith_append`, `splitOn_between` — pieces around a text, each with a separator next to it;
* `joinWith_lines` — a line between the lines before it and those after it;
* `mem_of_mem_joinWith`, `subset_of_mem_splitOn` — the characters of a join and of a piece.
-/
import SyntaxEdit.Text.Basic

namespace SyntaxEdit

namespace Text

variable {separator : Char}

/-- A character that is no separator goes to the first piece. -/
theorem splitOn_cons_of_ne {c : Char} (h : c ≠ separator) (rest : Text) :
    ∃ piece pieces, splitOn separator rest = piece :: pieces ∧
      splitOn separator (c :: rest) = (c :: piece) :: pieces := by
  obtain ⟨piece, pieces, hrest⟩ := List.exists_cons_of_ne_nil (splitOn_ne_nil separator rest)
  exact ⟨piece, pieces, hrest, by rw [splitOn, if_neg h, hrest]⟩

theorem splitOn_cons_self (separator : Char) (rest : Text) :
    splitOn separator (separator :: rest) = [] :: splitOn separator rest := by
  rw [splitOn, if_pos rfl]

/-- No piece has the separator in it. -/
theorem not_mem_of_mem_splitOn {t piece : Text} (h : piece ∈ splitOn separator t) :
    separator ∉ piece := by
  induction t generalizing piece with
  | nil =>
    obtain rfl : piece = [] := by simpa [splitOn] using h
    simp
  | cons c rest ih =>
    -- A separator starts a new piece, and any other character joins the first one.
    by_cases hc : c = separator
    · subst hc
      rw [splitOn_cons_self] at h
      rcases List.mem_cons.1 h with rfl | h
      · simp
      · exact ih h
    · obtain ⟨first, pieces, hrest, hcons⟩ := splitOn_cons_of_ne hc rest
      rw [hrest] at ih
      rw [hcons] at h
      rcases List.mem_cons.1 h with rfl | h
      · rw [List.mem_cons, not_or]
        exact ⟨fun heq => hc heq.symm, ih List.mem_cons_self⟩
      · exact ih (List.mem_cons_of_mem _ h)

/-- A text without the separator is cut off at the separator behind it. -/
theorem splitOn_append_cons {piece : Text} (h : separator ∉ piece) (rest : Text) :
    splitOn separator (piece ++ separator :: rest) = piece :: splitOn separator rest := by
  induction piece with
  | nil => exact splitOn_cons_self separator rest
  | cons c piece ih =>
    rw [List.mem_cons, not_or] at h
    obtain ⟨first, pieces, hrest, hcons⟩ :=
      splitOn_cons_of_ne (fun heq => h.1 heq.symm) (piece ++ separator :: rest)
    rw [ih h.2] at hrest
    obtain ⟨rfl, rfl⟩ := List.cons.inj hrest
    exact hcons

theorem splitOn_of_not_mem {t : Text} (h : separator ∉ t) : splitOn separator t = [t] := by
  induction t with
  | nil => rfl
  | cons c rest ih =>
    rw [List.mem_cons, not_or] at h
    obtain ⟨first, pieces, hrest, hcons⟩ := splitOn_cons_of_ne (fun heq => h.1 heq.symm) rest
    rw [ih h.2] at hrest
    obtain ⟨rfl, rfl⟩ := List.cons.inj hrest
    exact hcons

/-- Pieces without separators are what their join is split into. -/
theorem splitOn_joinWith {pieces : List Text} (hne : pieces ≠ [])
    (hfree : ∀ piece ∈ pieces, separator ∉ piece) :
    splitOn separator (joinWith [separator] pieces) = pieces := by
  induction pieces with
  | nil => exact absurd rfl hne
  | cons piece pieces ih =>
    have hpiece := hfree piece List.mem_cons_self
    cases pieces with
    | nil => exact splitOn_of_not_mem hpiece
    | cons next pieces =>
      rw [joinWith, List.append_assoc, List.singleton_append, splitOn_append_cons hpiece,
        ih (by simp) fun other hother => hfree other (List.mem_cons_of_mem _ hother)]

/-! ### Pieces around a text -/

/-- All pieces but the first have a separator in front of them. -/
theorem joinWith_cons (between piece : Text) (pieces : List Text) :
    joinWith between (piece :: pieces) = piece ++ pieces.flatMap (between ++ ·) := by
  induction pieces generalizing piece with
  | nil => simp [joinWith]
  | cons next pieces ih => rw [joinWith, ih next, List.flatMap_cons, List.append_assoc,
      List.append_assoc]

/-- All pieces in front of others have a separator behind them. -/
theorem joinWith_append {between : Text} {pieces : List Text} (before : List Text)
    (h : pieces ≠ []) :
    joinWith between (before ++ pieces) =
      before.flatMap (· ++ between) ++ joinWith between pieces := by
  induction before with
  | nil => rfl
  | cons piece before ih =>
    obtain ⟨next, others, hnext⟩ := List.exists_cons_of_ne_nil (l := before ++ pieces) (by simp [h])
    rw [List.cons_append, hnext, joinWith, ← hnext, ih, List.flatMap_cons]
    simp only [List.append_assoc]

theorem flatMap_append_separator {between : Text} {pieces : List Text} (h : pieces ≠ []) :
    pieces.flatMap (· ++ between) = joinWith between pieces ++ between := by
  obtain ⟨before, last, rfl⟩ := (List.eq_nil_or_concat pieces).resolve_left h
  rw [List.concat_eq_append, List.flatMap_append, joinWith_append before (by simp)]
  simp [joinWith]

/-- A text between pieces without separators, with a separator between any two, is split on its
own. -/
theorem splitOn_between {before after : List Text} (hbefore : ∀ piece ∈ before, separator ∉ piece)
    (hafter : ∀ piece ∈ after, separator ∉ piece) (t : Text) :
    splitOn separator (before.flatMap (· ++ [separator]) ++ t ++ after.flatMap ([separator] ++ ·)) =
      before ++ splitOn separator t ++ after := by
  obtain ⟨first, others, hsplit⟩ := List.exists_cons_of_ne_nil (splitOn_ne_nil separator t)
  have hfree : ∀ piece ∈ before ++ splitOn separator t ++ after, separator ∉ piece := by
    intro piece hpiece
    rcases List.mem_append.1 hpiece with hpiece | hpiece
    · exact (List.mem_append.1 hpiece).elim (hbefore piece) not_mem_of_mem_splitOn
    · exact hafter piece hpiece
  have hwhole : joinWith [separator] (before ++ (splitOn separator t ++ after)) =
      before.flatMap (· ++ [separator]) ++ t ++ after.flatMap ([separator] ++ ·) := by
    have ht : t = first ++ others.flatMap ([separator] ++ ·) := by
      rw [← joinWith_cons, ← hsplit, joinWith_splitOn]
    rw [joinWith_append before (by simp [hsplit]), hsplit, List.cons_append, joinWith_cons,
      List.flatMap_append, ht]
    simp only [List.append_assoc]
  rw [← hwhole, splitOn_joinWith (by simp [hsplit]) (by simpa using hfree), List.append_assoc]

/-- A piece stands between the pieces before it and those after it. -/
theorem exists_pieces_eq {pieces : List Text} {piece : Text} {n : Nat}
    (h : pieces[n]? = some piece) :
    ∃ before after, pieces = before ++ [piece] ++ after ∧ before.length = n := by
  obtain ⟨hlt, rfl⟩ := List.getElem?_eq_some_iff.1 h
  refine ⟨pieces.take n, pieces.drop (n + 1), ?_, ?_⟩
  · rw [List.append_assoc, List.singleton_append, ← List.drop_eq_getElem_cons hlt,
      List.take_append_drop]
  · rw [List.length_take, Nat.min_eq_left (Nat.le_of_lt hlt)]

/-! ### Characters -/

/-- What stands in a join stands in a piece or in the separator. -/
theorem mem_of_mem_joinWith {between : Text} {pieces : List Text} {c : Char}
    (h : c ∈ joinWith between pieces) : c ∈ between ∨ ∃ piece ∈ pieces, c ∈ piece := by
  induction pieces with
  | nil => cases h
  | cons piece pieces ih =>
    cases pieces with
    | nil => exact .inr ⟨piece, List.mem_cons_self, h⟩
    | cons next pieces =>
      rw [joinWith, List.mem_append, List.mem_append] at h
      rcases h with (h | h) | h
      · exact .inr ⟨piece, List.mem_cons_self, h⟩
      · exact .inl h
      · rcases ih h with h | ⟨other, hother, hc⟩
        · exact .inl h
        · exact .inr ⟨other, List.mem_cons_of_mem _ hother, hc⟩

theorem subset_joinWith {between piece : Text} {pieces : List Text} (h : piece ∈ pieces) :
    piece ⊆ joinWith between pieces := by
  induction pieces with
  | nil => cases h
  | cons first pieces ih =>
    cases pieces with
    | nil =>
      obtain rfl := List.mem_singleton.1 h
      exact List.Subset.refl _
    | cons next pieces =>
      rw [joinWith]
      rcases List.mem_cons.1 h with rfl | h
      · exact List.subset_append_of_subset_left _ (List.subset_append_left _ _)
      · exact List.subset_append_of_subset_right _ (ih h)

theorem subset_of_mem_splitOn {t piece : Text} (h : piece ∈ splitOn separator t) : piece ⊆ t := by
  have hpiece : piece ⊆ joinWith [separator] (splitOn separator t) := subset_joinWith h
  rwa [joinWith_splitOn] at hpiece

end Text

/-- A text is cut into the lines before a line, the line, and the lines after it. -/
theorem joinWith_lines (before after : List Text) (line : Text) :
    Text.joinWith ['\n'] (before ++ [line] ++ after) =
      before.flatMap (· ++ ['\n']) ++ line ++ after.flatMap (['\n'] ++ ·) := by
  rw [List.append_assoc, Text.joinWith_append before (by simp), List.singleton_append,
    Text.joinWith_cons, List.append_assoc]

end SyntaxEdit
