/-
The line around an offset.

* `Text.IsLine` — a line between the lines before it and the line break after it;
* `exists_isLine` — every cut of a text falls into a line;
* `lineStart_eq`, `lineEnd_eq` — the offsets at which that line starts and ends;
* `startsLine_eq`, `lineIndent_eq` — what stands in front of an offset on its line, and the
  indentation of that line;
* `exists_append_of_byteLength_le`, `append_inj_of_byteLength`, `append_inj_of_newline_not_mem` —
  two cuts of a text;
* `Splice.apply_append` — replacing a part of a text.
-/
import SyntaxEdit.Proofs.Trimming
import SyntaxEdit.Splice

namespace SyntaxEdit

namespace Text

/-! ### Valid ranges -/

theorem cutAt_append (s t : Text) : cutAt (s ++ t) (byteLength s) = .ok (s, t) := by
  rw [cutAt, cut?_append]

theorem between_append (front middle back : Text) :
    between (front ++ middle ++ back) (byteLength front) (byteLength (front ++ middle)) =
      .ok middle := by
  rw [between, slice?_eq_some_iff.2 ⟨front, back, rfl, rfl, rfl⟩]

/-- Of two cuts of a text, the part up to the earlier one starts the part up to the later one. -/
theorem exists_append_of_byteLength_le {before after before' after' : Text}
    (h : before ++ after = before' ++ after') (hle : byteLength before ≤ byteLength before') :
    ∃ middle, before' = before ++ middle := by
  rcases List.append_eq_append_iff.1 h with ⟨middle, hbefore, -⟩ | ⟨middle, hbefore, -⟩
  · exact ⟨middle, hbefore⟩
  · cases middle with
    | nil => exact ⟨[], by simpa using hbefore.symm⟩
    | cons c middle =>
      have hpos := Char.utf8Size_pos c
      rw [hbefore, byteLength_append, byteLength_cons] at hle
      omega

/-- A text has one cut behind its last newline. -/
theorem append_inj_of_newline_not_mem {front back front' back' : Text}
    (h : front ++ back = front' ++ back') (hfront : ∀ c ∈ front.getLast?, c = '\n')
    (hback : '\n' ∉ back) (hfront' : ∀ c ∈ front'.getLast?, c = '\n') (hback' : '\n' ∉ back') :
    front = front' ∧ back = back' := by
  -- The last line of a text is what stands behind its last newline.
  have htaken : ∀ {s t : Text}, (∀ c ∈ s.getLast?, c = '\n') → '\n' ∉ t →
      takeEndWhile (· ≠ '\n') (s ++ t) = t := by
    intro s t hs ht
    refine takeEndWhile_append_of_getLast (fun c hc => by simpa using hs c hc) fun c hc => ?_
    rw [decide_eq_true_eq]
    rintro rfl
    exact ht hc
  have hsame : back = back' := by rw [← htaken hfront hback, h, htaken hfront' hback']
  subst hsame
  exact ⟨List.append_cancel_right h, rfl⟩

/-- A text can be cut in one way at an offset. -/
theorem append_inj_of_byteLength {before after before' after' : Text}
    (h : before ++ after = before' ++ after') (hlength : byteLength before = byteLength before') :
    before = before' ∧ after = after' := by
  have hcut := cut?_append before after
  rw [h, hlength, cut?_append] at hcut
  obtain ⟨hbefore, hafter⟩ := Prod.mk.inj (Option.some.inj hcut)
  exact ⟨hbefore.symm, hafter.symm⟩

/-! ### Lines -/

/-- Whether `line` is a whole line where it stands between `front` and `rest`. -/
structure IsLine (front line rest : Text) : Prop where
  before : ∀ c ∈ front.getLast?, c = '\n'
  not_mem : '\n' ∉ line
  after : ∀ c ∈ rest.head?, c = '\n'

/-- Every cut of a text falls into a line. -/
theorem exists_isLine (before after : Text) :
    ∃ front left right rest, before = front ++ left ∧ after = right ++ rest ∧
      IsLine front (left ++ right) rest := by
  refine ⟨trimEndWhile (· ≠ '\n') before, takeEndWhile (· ≠ '\n') before,
    after.takeWhile (· ≠ '\n'), after.dropWhile (· ≠ '\n'),
    (trimEndWhile_append_takeEndWhile _ _).symm, List.takeWhile_append_dropWhile.symm, ?_, ?_, ?_⟩
  · intro c hc
    simpa using not_of_mem_getLast?_trimEndWhile hc
  · intro hmem
    rcases List.mem_append.1 hmem with hleft | hright
    · simpa using mem_takeEndWhile hleft
    · simpa using List.all_eq_true.1 List.all_takeWhile _ hright
  · intro c hc
    simpa using not_of_mem_head?_dropWhile hc

variable {front left right rest : Text}

theorem IsLine.ne_of_mem {line : Text} (h : IsLine front line rest) {c : Char} (hc : c ∈ line) :
    decide (c ≠ '\n') = true := by
  rw [decide_eq_true_eq]
  rintro rfl
  exact h.not_mem hc

/-- The line around an offset starts after the last line break before it. -/
theorem lineStart_eq (h : IsLine front (left ++ right) rest) :
    lineStart (front ++ left ++ (right ++ rest)) (byteLength (front ++ left)) =
      .ok (byteLength front) := by
  have hleft : ∀ c ∈ left, decide (c ≠ '\n') = true :=
    fun c hc => h.ne_of_mem (List.mem_append_left _ hc)
  have hfront : ∀ c ∈ front.getLast?, decide (c ≠ '\n') = false := by
    intro c hc
    simpa using h.before c hc
  rw [lineStart, cutAt_append]
  show Except.ok (byteLength (trimEndWhile (· ≠ '\n') (front ++ left))) = _
  rw [trimEndWhile_append_of_getLast hfront hleft]

/-- The line around an offset ends at the first line break after it. -/
theorem lineEnd_eq (h : IsLine front (left ++ right) rest) :
    lineEnd (front ++ left ++ (right ++ rest)) (byteLength (front ++ left)) =
      .ok (byteLength (front ++ (left ++ right))) := by
  have hright : ∀ c ∈ right, decide (c ≠ '\n') = true :=
    fun c hc => h.ne_of_mem (List.mem_append_right _ hc)
  have htake : (right ++ rest).takeWhile (· ≠ '\n') = right :=
    takeWhile_append_of_head hright fun c hc => by simpa using h.after c hc
  rw [lineEnd, cutAt_append]
  show Except.ok (byteLength (front ++ left) +
    byteLength ((right ++ rest).takeWhile (· ≠ '\n'))) = _
  rw [htake, ← byteLength_append, List.append_assoc]

/-- A line starts at an offset exactly if only spaces and tabs precede it on the line. -/
theorem startsLine_eq (h : IsLine front (left ++ right) rest) :
    startsLine (front ++ left ++ (right ++ rest)) (byteLength (front ++ left)) =
      .ok (left.all isIndent) := by
  simp only [startsLine, lineStart_eq h, between_append, bind, Except.bind, pure, Except.pure]

/-- The indentation at an offset is that of the whole line. -/
theorem lineIndent_eq (h : IsLine front (left ++ right) rest) :
    lineIndent (front ++ left ++ (right ++ rest)) (byteLength (front ++ left)) =
      .ok ((left ++ right).takeWhile isIndent) := by
  have htext : front ++ left ++ (right ++ rest) = front ++ (left ++ right) ++ rest := by simp
  have hstop : lineEnd (front ++ (left ++ right) ++ rest) (byteLength front) =
      .ok (byteLength (front ++ (left ++ right))) := by
    -- Seen from its start, the line is all to the right.
    have hwhole : IsLine front ([] ++ (left ++ right)) rest := h
    have hend := lineEnd_eq hwhole
    rwa [List.append_nil, List.nil_append, ← List.append_assoc] at hend
  simp only [lineIndent, lineStart_eq h, bind, Except.bind, pure, Except.pure]
  rw [htext, hstop]
  simp only [between_append]

theorem indentBefore_append (before after : Text) :
    indentBefore (before ++ after) (byteLength before) =
      .ok (byteLength (trimEndWhile isIndent before)) := by
  simp only [indentBefore, cutAt_append, bind, Except.bind, pure, Except.pure]

theorem lineEnd_append (before after : Text) :
    lineEnd (before ++ after) (byteLength before) =
      .ok (byteLength (before ++ after.takeWhile (· ≠ '\n'))) := by
  simp only [lineEnd, cutAt_append, bind, Except.bind, pure, Except.pure, byteLength_append]

end Text

/-! ### Splices -/

/-- Replacing a part of a text keeps what stands around it. -/
theorem Splice.apply_append (front middle back replacement : Text) :
    (Splice.mk (Text.byteLength front) (Text.byteLength (front ++ middle)) replacement).apply
      (front ++ middle ++ back) = .ok (front ++ replacement ++ back) := by
  have hstart : Text.cut? (front ++ middle ++ back) (Text.byteLength front) =
      some (front, middle ++ back) := by
    rw [List.append_assoc, Text.cut?_append]
  have hle : Text.byteLength front ≤ Text.byteLength (front ++ middle) := by
    rw [Text.byteLength_append]
    exact Nat.le_add_right _ _
  simp only [Splice.apply, hstart, Text.cut?_append, if_pos hle]

end SyntaxEdit
