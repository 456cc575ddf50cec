/-
The removal of a node, and of its line if nothing is left on it.

* `dropBlankLine_eq` — a blank line goes with its line break, and with the one before it where it is
  the last line; other lines stay;
* `SyntaxTree.IsSeparatorOf`, `separatorEnd?_eq_some_iff` — the separator that goes with a node;
* `textWithout_eq` — removing a node takes its range out of the source, and then drops the line;
* `exists_textWithout` — every node of a tree that fits its source can be removed.
-/
import SyntaxEdit.Edit.Removal
import SyntaxEdit.Proofs.Lines
import SyntaxEdit.Proofs.WellFormed

namespace SyntaxEdit

/-! ### Blank lines -/

/-- The text around a line, without the line and one of the line breaks at it. -/
def aroundLine (front rest : Text) : Text :=
  if rest = [] then front.dropLast else front ++ rest.tail

open Text (byteLength IsLine)

variable {front line left right rest : Text}

/-- Removing a line leaves the text around it. -/
theorem removeLine_apply (h : IsLine front line rest) :
    (removeLine (front ++ line ++ rest) (byteLength front) (byteLength (front ++ line))).apply
      (front ++ line ++ rest) = .ok (aroundLine front rest) := by
  cases rest with
  | cons c rest =>
    -- The line break after the line is one byte long.
    obtain rfl : c = '\n' := h.after c rfl
    have hlt : byteLength (front ++ line) < byteLength (front ++ line ++ '\n' :: rest) := by
      rw [Text.byteLength_append (front ++ line), Text.byteLength_cons]
      exact Nat.lt_add_of_pos_right (Nat.add_pos_left (Char.utf8Size_pos _) _)
    have hbreak : byteLength (front ++ line) + 1 = byteLength (front ++ (line ++ ['\n'])) := by
      rw [← List.append_assoc, Text.byteLength_append (front ++ line)]
      rfl
    have htext : front ++ line ++ '\n' :: rest = front ++ (line ++ ['\n']) ++ rest := by simp
    rw [removeLine, if_pos hlt, hbreak, htext, Splice.apply_append]
    simp [aroundLine]
  | nil =>
    have hlt : ¬ byteLength (front ++ line) < byteLength (front ++ line ++ []) := by simp
    rw [removeLine, if_neg hlt]
    rcases List.eq_nil_or_concat front with rfl | ⟨lines, c, rfl⟩
    · rw [Text.byteLength_nil, if_neg (Nat.lt_irrefl 0)]
      exact Splice.apply_append [] line [] []
    · -- The last line goes with the line break before it, which is one byte long as well.
      obtain rfl : c = '\n' := h.before c (by simp)
      rw [List.concat_eq_append]
      have hpos : byteLength (lines ++ ['\n']) = byteLength lines + 1 := by
        rw [Text.byteLength_append]
        rfl
      have htext : lines ++ ['\n'] ++ line = lines ++ (['\n'] ++ line) := by simp
      rw [hpos, if_pos (Nat.succ_pos _), Nat.add_sub_cancel, htext, Splice.apply_append]
      simp [aroundLine]

/-- **A line is dropped exactly if it is blank.** -/
theorem dropBlankLine_eq (h : IsLine front (left ++ right) rest) :
    dropBlankLine (front ++ left ++ (right ++ rest)) (byteLength (front ++ left)) =
      .ok (if Text.isBlankText (left ++ right) then aroundLine front rest
        else front ++ left ++ (right ++ rest)) := by
  have htext : front ++ left ++ (right ++ rest) = front ++ (left ++ right) ++ rest := by simp
  simp only [dropBlankLine, Text.lineStart_eq h, Text.lineEnd_eq h, bind, Except.bind]
  rw [htext, Text.between_append]
  show (if Text.isBlankText (left ++ right) then _ else _) = _
  split
  · exact removeLine_apply h
  · rfl

/-- There is a line around every cut, so a blank one can be looked for. -/
theorem exists_dropBlankLine (before after : Text) :
    ∃ r, dropBlankLine (before ++ after) (byteLength before) = .ok r := by
  obtain ⟨front, left, right, rest, rfl, rfl, hline⟩ := Text.exists_isLine before after
  exact ⟨_, dropBlankLine_eq hline⟩

/-! ### Nodes -/

namespace SyntaxTree

variable {t : SyntaxTree} {n : Located}

/-- Whether a node is a semicolon or comma right after another one, with nothing but spaces and tabs
between the two. -/
structure IsSeparatorOf (t : SyntaxTree) (separator n : Located) : Prop where
  nextSibling : t.nextSibling? n = some separator
  anonymous : separator.node.isNamed = false
  type_eq : separator.type = ";" ∨ separator.type = ","
  gap : ∃ gap, Text.slice? t.source n.stop separator.start = some gap ∧
    ∀ c ∈ gap, c = ' ' ∨ c = '\t'

/-- What goes with a node is the separator after it, if there is one. -/
theorem separatorEnd?_eq_some_iff {stop : Nat} :
    t.separatorEnd? n = some stop ↔
      ∃ separator, t.IsSeparatorOf separator n ∧ separator.stop = stop := by
  have hindent : ∀ gap : Text, gap.all isIndent = true ↔ ∀ c ∈ gap, c = ' ' ∨ c = '\t' := by
    simp [isIndent]
  simp only [separatorEnd?, bind, Option.bind_eq_some_iff]
  constructor
  · rintro ⟨next, hnext, h⟩
    split at h
    · cases h
    · rename_i hkind
      obtain ⟨gap, hgap, h⟩ := Option.bind_eq_some_iff.1 h
      split at h
      · rename_i hblank
        obtain ⟨hnamed, htype⟩ := not_or.1 hkind
        exact ⟨next, ⟨hnext, by simpa using hnamed, by grind, gap, hgap, (hindent gap).1 hblank⟩,
          Option.some.inj h⟩
      · cases h
  · rintro ⟨next, hseparator, rfl⟩
    obtain ⟨gap, hgap, hblank⟩ := hseparator.gap
    -- The code asks for what a separator is not, so its conditions are turned around.
    have hkind : ¬ (next.node.isNamed ∨ (next.type ≠ ";" ∧ next.type ≠ ",")) := by
      have := hseparator.anonymous
      have := hseparator.type_eq
      grind
    refine ⟨next, hseparator.nextSibling, ?_⟩
    rw [if_neg hkind, hgap, Option.bind_some, if_pos ((hindent gap).2 hblank)]

/-- The range that is taken out with a node is a slice of the source. -/
theorem exists_source_eq_of_removal (hslices : t.HasSlices) (hordered : t.HasOrderedSiblings)
    (hn : n ∈ t.nodes) :
    ∃ front removed back, t.source = front ++ removed ++ back ∧ byteLength front = n.start ∧
      byteLength (front ++ removed) = (t.separatorEnd? n).getD n.stop := by
  obtain ⟨front, back, hsource, hstart, hstop⟩ := exists_source_eq hslices hn
  cases hseparator : t.separatorEnd? n with
  | none => exact ⟨front, t.textOf n.node, back, hsource, hstart, hstop⟩
  | some stop =>
    obtain ⟨next, ⟨hnext, -, -, -⟩, rfl⟩ := separatorEnd?_eq_some_iff.1 hseparator
    obtain ⟨front', back', hsource', hstart', hstop'⟩ :=
      exists_source_eq hslices (mem_nodes_of_nextSibling? hn hnext)
    -- What precedes the separator starts with what precedes the node.
    have hle : byteLength front ≤ byteLength front' := by
      rw [hstart, hstart']
      exact Nat.le_trans (start_le_stop hslices hn)
        (stop_le_start_of_nextSibling? hordered hn hnext)
    have hsame : front ++ (t.textOf n.node ++ back) =
        front' ++ (t.textOf next.node ++ back') := by
      rw [← List.append_assoc, ← List.append_assoc, ← hsource, ← hsource']
    obtain ⟨gap, rfl⟩ := Text.exists_append_of_byteLength_le hsame hle
    refine ⟨front, gap ++ t.textOf next.node, back', ?_, hstart, ?_⟩
    · rw [hsource', List.append_assoc front]
    · rw [← List.append_assoc, hstop']
      rfl

/-- Removing a node takes its range and that of its separator out of the source, and then drops the
line if nothing is left on it. -/
theorem textWithout_eq (hslices : t.HasSlices) (hordered : t.HasOrderedSiblings)
    (hn : n ∈ t.nodes) :
    ∃ front removed back, t.source = front ++ removed ++ back ∧ byteLength front = n.start ∧
      byteLength (front ++ removed) = (t.separatorEnd? n).getD n.stop ∧
      t.textWithout n = dropBlankLine (front ++ back) (byteLength front) := by
  obtain ⟨front, removed, back, hsource, hstart, hstop⟩ :=
    exists_source_eq_of_removal hslices hordered hn
  refine ⟨front, removed, back, hsource, hstart, hstop, ?_⟩
  rw [textWithout, ← hstop, ← hstart, hsource, Splice.apply_append, List.append_nil]
  rfl

/-- **Every node can be removed** from a tree that fits its source. -/
theorem exists_textWithout (hslices : t.HasSlices) (hordered : t.HasOrderedSiblings)
    (hn : n ∈ t.nodes) : ∃ r, t.textWithout n = .ok r := by
  obtain ⟨front, removed, back, -, -, -, hremoval⟩ := textWithout_eq hslices hordered hn
  rw [hremoval]
  exact exists_dropBlankLine front back

end SyntaxTree

end SyntaxEdit
