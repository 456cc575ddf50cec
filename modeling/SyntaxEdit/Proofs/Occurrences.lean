/-
Occurrences of a text in the lines of another one.

A search goes through a line from the left and goes on behind each occurrence that it finds.

* `AreLeftmost` — the columns of the leftmost occurrence, and of the leftmost ones behind it;
* `areLeftmost_iff` — these columns are found, and no others are;
* `Text.rowStart`, `slice?_rowStart` — where a row starts, and what stands at a column behind;
* `SyntaxTree.locate_eq` — occurrences are reported line by line.
-/
import Mathlib.Data.Nat.Find
import SyntaxEdit.Proofs.Splitting
import SyntaxEdit.Tree.Occurrence

namespace SyntaxEdit

open Text (byteLength)

variable {part line front back rest : Text} {column : Nat}

/-- Whether a text occurs for the first time behind `front`. -/
def IsFirstOccurrence (part front back : Text) : Prop :=
  ∀ front' back', front' ++ part ++ back' = front ++ part ++ back → front.length ≤ front'.length

/-- The byte columns of the leftmost occurrence of a text in a line, and of the leftmost ones in the
rest of the line behind it. -/
inductive AreLeftmost (part : Text) : Text → List Nat → Prop
  | none {line : Text} (h : ¬part <:+: line) : AreLeftmost part line []
  | next {front back : Text} {columns : List Nat} (hfirst : IsFirstOccurrence part front back)
      (h : AreLeftmost part back columns) :
      AreLeftmost part (front ++ part ++ back)
        (byteLength front :: columns.map (byteLength (front ++ part) + ·))

/-! ### The search -/

/-- Columns count from where the search has started. -/
theorem occurrencesFrom_add (start column skip : Nat) (line : Text) :
    occurrencesFrom part (start + column) skip line =
      (occurrencesFrom part column skip line).map (start + ·) := by
  induction line generalizing column skip with
  | nil => rfl
  | cons c line ih =>
    rw [occurrencesFrom, occurrencesFrom, Nat.add_assoc]
    split
    · rw [List.map_cons, ih]
    · rw [ih]

/-- The rest of an occurrence is passed over. -/
theorem occurrencesFrom_length (column : Nat) (passed rest : Text) :
    occurrencesFrom part column passed.length (passed ++ rest) =
      occurrencesFrom part (column + byteLength passed) 0 rest := by
  induction passed generalizing column with
  | nil => rfl
  | cons c passed ih =>
    rw [List.cons_append, occurrencesFrom, if_neg (by simp), List.length_cons, Nat.add_sub_cancel,
      ih, Text.byteLength_cons, Nat.add_assoc]

/-- An occurrence is found where it starts. -/
theorem occurrencesFrom_append (hne : part ≠ []) (column : Nat) (rest : Text) :
    occurrencesFrom part column 0 (part ++ rest) =
      column :: occurrencesFrom part (column + byteLength part) 0 rest := by
  obtain ⟨c, others, rfl⟩ := List.exists_cons_of_ne_nil hne
  have hprefix : (c :: others).isPrefixOf (c :: (others ++ rest)) = true := by
    rw [List.isPrefixOf_iff_prefix]
    exact List.prefix_append (c :: others) rest
  rw [List.cons_append, occurrencesFrom, if_pos ⟨rfl, hprefix⟩, List.length_cons,
    Nat.add_sub_cancel, occurrencesFrom_length, Text.byteLength_cons, Nat.add_assoc]

/-- What no occurrence starts in is left behind. -/
theorem occurrencesFrom_of_not_isPrefix (column : Nat)
    (h : ∀ before after, after ≠ [] → before ++ after = front → ¬part <+: after ++ rest) :
    occurrencesFrom part column 0 (front ++ rest) =
      occurrencesFrom part (column + byteLength front) 0 rest := by
  induction front generalizing column with
  | nil => rfl
  | cons c front ih =>
    -- Nothing that is looked for starts here, so the scan goes on by one character.
    have hmiss : ¬(0 = 0 ∧ part.isPrefixOf (c :: (front ++ rest)) = true) := by
      rw [List.isPrefixOf_iff_prefix]
      exact fun hprefix => h [] (c :: front) (by simp) rfl hprefix.2
    rw [List.cons_append, occurrencesFrom, if_neg hmiss, Nat.zero_sub,
      ih _ fun before after hafter hfront => h (c :: before) after hafter (by simp [hfront]),
      Text.byteLength_cons, Nat.add_assoc]

/-- A text without an occurrence is searched in vain. -/
theorem occurrences_of_not_isInfix (h : ¬part <:+: line) : occurrences part line = [] := by
  have hnone : ∀ before after, after ≠ [] → before ++ after = line → ¬part <+: after ++ [] := by
    rintro before after - rfl ⟨back, hback⟩
    rw [List.append_nil] at hback
    exact h ⟨before, back, by rw [List.append_assoc, hback]⟩
  have hmiss := occurrencesFrom_of_not_isPrefix 0 hnone
  rwa [List.append_nil, occurrencesFrom] at hmiss

/-- The first occurrence is found, and then those behind it. -/
theorem occurrences_of_isFirstOccurrence (hne : part ≠ []) (h : IsFirstOccurrence part front back) :
    occurrences part (front ++ part ++ back) =
      byteLength front :: (occurrences part back).map (byteLength (front ++ part) + ·) := by
  -- An occurrence that starts earlier would not be behind the first.
  have hmiss : ∀ before after, after ≠ [] → before ++ after = front →
      ¬part <+: after ++ (part ++ back) := by
    rintro before after hafter rfl ⟨back', hback⟩
    have hlength := h before back' (by simp [hback])
    rw [List.length_append] at hlength
    exact hafter (List.length_eq_zero_iff.1 (by omega))
  rw [occurrences, List.append_assoc, occurrencesFrom_of_not_isPrefix 0 hmiss,
    occurrencesFrom_append hne, Nat.zero_add, ← Text.byteLength_append, occurrences,
    ← occurrencesFrom_add, Nat.add_zero]

/-! ### Leftmost occurrences -/

/-- A text that occurs somewhere has a first occurrence. -/
theorem exists_isFirstOccurrence (h : part <:+: line) :
    ∃ front back, line = front ++ part ++ back ∧ IsFirstOccurrence part front back := by
  classical
  have hsome : ∃ n front back, front ++ part ++ back = line ∧ front.length = n := by
    obtain ⟨front, back, hline⟩ := h
    exact ⟨_, front, back, hline, rfl⟩
  obtain ⟨front, back, hline, hlength⟩ := Nat.find_spec hsome
  refine ⟨front, back, hline.symm, fun front' back' hsame => ?_⟩
  rw [hlength]
  exact Nat.find_min' hsome ⟨front', back', hsame.trans hline, rfl⟩

theorem exists_areLeftmost (hne : part ≠ []) (line : Text) :
    ∃ columns, AreLeftmost part line columns := by
  by_cases h : part <:+: line
  · obtain ⟨front, back, hline, hfirst⟩ := exists_isFirstOccurrence h
    -- What is left behind an occurrence is shorter than the line.
    have hshorter : back.length < line.length := by
      have hpos := List.length_pos_iff.2 hne
      simp only [hline, List.length_append]
      omega
    obtain ⟨columns, hcolumns⟩ := exists_areLeftmost hne back
    exact ⟨_, hline ▸ AreLeftmost.next hfirst hcolumns⟩
  · exact ⟨[], .none h⟩
termination_by line.length

theorem AreLeftmost.occurrences_eq (hne : part ≠ []) {columns : List Nat}
    (h : AreLeftmost part line columns) : occurrences part line = columns := by
  induction h with
  | none h => exact occurrences_of_not_isInfix h
  | next hfirst _ ih => rw [occurrences_of_isFirstOccurrence hne hfirst, ih]

/-- **A search finds the leftmost occurrences**, and only those. -/
theorem areLeftmost_iff (hne : part ≠ []) {columns : List Nat} :
    AreLeftmost part line columns ↔ occurrences part line = columns := by
  refine ⟨AreLeftmost.occurrences_eq hne, ?_⟩
  rintro rfl
  obtain ⟨columns, hcolumns⟩ := exists_areLeftmost hne line
  rwa [hcolumns.occurrences_eq hne]

/-- The text stands at each of its columns. -/
theorem AreLeftmost.exists_eq {columns : List Nat} (h : AreLeftmost part line columns)
    (hcolumn : column ∈ columns) :
    ∃ front back, line = front ++ part ++ back ∧ byteLength front = column := by
  induction h generalizing column with
  | none => cases hcolumn
  | @next front back columns _ _ ih =>
    rcases List.mem_cons.1 hcolumn with rfl | hcolumn
    · exact ⟨front, back, rfl, rfl⟩
    · obtain ⟨column', hcolumn', rfl⟩ := List.mem_map.1 hcolumn
      obtain ⟨front', back', rfl, rfl⟩ := ih hcolumn'
      exact ⟨front ++ part ++ front', back', by simp, by rw [Text.byteLength_append]⟩

/-! ### Rows -/

namespace Text

/-- The byte offset at which a row of a text starts. -/
def rowStart (t : Text) (row : Nat) : Nat :=
  byteLength (((splitOn '\n' t).take row).flatMap (· ++ ['\n']))

theorem rowStart_eq {t : Text} {before lines : List Text} (h : before ++ lines = splitOn '\n' t) :
    t.rowStart before.length = byteLength (before.flatMap (· ++ ['\n'])) := by
  rw [rowStart, ← h, List.take_left]

/-- What stands in a row stands in the text, at the column behind the start of the row. -/
theorem slice?_rowStart {t : Text} {row : Nat}
    (h : (splitOn '\n' t)[row]? = some (front ++ part ++ back)) :
    slice? t (t.rowStart row + byteLength front)
      (t.rowStart row + byteLength front + byteLength part) = some part := by
  obtain ⟨before, after, hlines, rfl⟩ := exists_pieces_eq h
  have hstart : t.rowStart before.length = byteLength (before.flatMap (· ++ ['\n'])) :=
    rowStart_eq (by rw [hlines, List.append_assoc])
  rw [slice?_eq_some_iff]
  refine ⟨before.flatMap (· ++ ['\n']) ++ front, back ++ after.flatMap (['\n'] ++ ·), ?_, ?_, ?_⟩
  · rw [← joinWith_splitOn '\n' t, hlines, joinWith_lines]
    simp only [List.append_assoc]
  · rw [byteLength_append, hstart]
  · rw [byteLength_append, byteLength_append, hstart]

end Text

namespace SyntaxTree

/-- What is reported of an occurrence at a row and a column. -/
def occurrenceAt (t : SyntaxTree) (part : Text) (row column : Nat) : Occurrence :=
  let start := t.source.rowStart row + column
  let address := t.root.smallestCovering start (start + byteLength part)
  let text := match t.root.at? address with
    | some n => t.textOf n
    | none => []
  ⟨t.pathTo address, row, column, text⟩

/-- Line by line, the offset at which the search stands is that of the row. -/
theorem locateFrom_eq (t : SyntaxTree) (part : Text) (before lines : List Text)
    (h : before ++ lines = Text.splitOn '\n' t.source) :
    t.locateFrom part before.length (byteLength (before.flatMap (· ++ ['\n']))) lines =
      (lines.zipIdx before.length).flatMap fun (line, row) =>
        (occurrences part line).map (t.occurrenceAt part row) := by
  induction lines generalizing before with
  | nil => rfl
  | cons line lines ih =>
    -- The next line starts one byte behind the end of this one.
    have hnext := ih (before ++ [line]) (by rw [← h, List.append_assoc, List.singleton_append])
    have hoffset : byteLength ((before ++ [line]).flatMap (· ++ ['\n'])) =
        byteLength (before.flatMap (· ++ ['\n'])) + byteLength line + 1 := by
      rw [List.flatMap_append, List.flatMap_singleton, Text.byteLength_append,
        Text.byteLength_append, Nat.add_assoc]
      rfl
    rw [List.length_append, List.length_singleton, hoffset] at hnext
    rw [locateFrom, hnext, List.zipIdx_cons, List.flatMap_cons, ← Text.rowStart_eq h]
    rfl

/-- The occurrences are reported line by line, and from left to right in each line. -/
theorem locate_eq (t : SyntaxTree) (hne : part ≠ []) :
    t.locate part = (Text.splitOn '\n' t.source).zipIdx.flatMap fun (line, row) =>
      (occurrences part line).map (t.occurrenceAt part row) := by
  rw [locate, if_neg hne]
  exact t.locateFrom_eq part [] _ rfl

end SyntaxTree

end SyntaxEdit
