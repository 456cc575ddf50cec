/-
Edits by line number, told by the lines that they leave.

A buffer of lines is written down as a text, and the lines of that text are read again by the next
edit.  Two kinds of buffers are not read back as they were: a closed one without lines, and one
whose last line is empty and not closed.

* `ofText_toText_iff` — every other buffer is read back;
* `LineEdit`, `LineEdit.outcome` — an edit, and the lines that it should leave, by their numbers;
* `ofText_textAfter_iff` — an edit leaves exactly these lines, unless they are of those two kinds;
* `updateLine_line_iff` — a line can be replaced by itself exactly if it is not empty: an empty
  content has no lines.
-/
import Mathlib.Data.List.Basic
import SyntaxEdit.LineBuffer
import SyntaxEdit.Proofs.Splitting

namespace SyntaxEdit

open Text (splitOn joinWith)

namespace LineBuffer

variable {b : LineBuffer} {t line : Text}

/-! ### Lines as written and as read -/

/-- Whether every line is one line. -/
def HasSingleLines (b : LineBuffer) : Prop :=
  ∀ line ∈ b.lines, '\n' ∉ line

theorem ofText_nil : ofText [] = ⟨[], false⟩ := rfl

theorem ofText_closed (t : Text) : ofText (t ++ ['\n']) = ⟨splitOn '\n' t, true⟩ := by
  rw [ofText, if_neg (by simp), if_pos List.getLast?_concat, List.dropLast_concat]

theorem ofText_open (hne : t ≠ []) (hlast : t.getLast? ≠ some '\n') :
    ofText t = ⟨splitOn '\n' t, false⟩ := by
  rw [ofText, if_neg hne, if_neg hlast]

theorem lines_ofText_eq_nil_iff : (ofText t).lines = [] ↔ t = [] := by
  constructor
  · intro h
    rw [← toText_ofText t, toText, h]
    simp [joinWith]
  · rintro rfl
    rfl

theorem hasSingleLines_ofText (t : Text) : (ofText t).HasSingleLines := by
  intro line hline
  rw [ofText] at hline
  split at hline
  · cases hline
  · split at hline <;> exact Text.not_mem_of_mem_splitOn hline

/-- The lines of a text without a newline. -/
theorem lines_ofText_of_newline_not_mem (hne : line ≠ []) (h : '\n' ∉ line) :
    (ofText line).lines = [line] := by
  have hlast : line.getLast? ≠ some '\n' := fun hlast => h (List.mem_of_getLast? hlast)
  rw [ofText_open hne hlast, Text.splitOn_of_not_mem h]

/-- Lines that are closed are read back. -/
theorem ofText_toText_closed {lines : List Text} (hlines : HasSingleLines ⟨lines, true⟩)
    (hne : lines ≠ []) : ofText (toText ⟨lines, true⟩) = ⟨lines, true⟩ := by
  rw [toText, if_pos ⟨rfl, hne⟩, ofText_closed, Text.splitOn_joinWith hne hlines]

/-- Lines that are not closed are read back if the last one is not empty. -/
theorem ofText_toText_open {front : List Text} {last : Text}
    (hlines : HasSingleLines ⟨front ++ [last], false⟩) (hlast : last ≠ []) :
    ofText (toText ⟨front ++ [last], false⟩) = ⟨front ++ [last], false⟩ := by
  have htext : joinWith ['\n'] (front ++ [last]) = front.flatMap (· ++ ['\n']) ++ last := by
    rw [Text.joinWith_append front (by simp), joinWith]
  have hnewline : (front.flatMap (· ++ ['\n']) ++ last).getLast? ≠ some '\n' := by
    rw [List.getLast?_append_of_ne_nil _ hlast]
    exact fun h => hlines last (by simp) (List.mem_of_getLast? h)
  rw [toText, if_neg (by simp), List.append_nil, htext, ofText_open (by simp [hlast]) hnewline,
    ← htext, Text.splitOn_joinWith (by simp) hlines]

/-- An empty last line that nothing closes is no line any more, and what stands before it is closed
by its break. -/
theorem ofText_toText_emptyLast {front : List Text}
    (hlines : HasSingleLines ⟨front ++ [[]], false⟩) :
    ofText (toText ⟨front ++ [[]], false⟩) = ⟨front, !front.isEmpty⟩ := by
  rw [toText, if_neg (by simp), List.append_nil]
  by_cases hne : front = []
  · subst hne
    rfl
  · -- The empty last line is written as a break at the end, and is read as one.
    have htext : joinWith ['\n'] (front ++ [[]]) = joinWith ['\n'] front ++ ['\n'] := by
      rw [Text.joinWith_append front (by simp), Text.flatMap_append_separator hne, joinWith,
        List.append_nil]
    have hfront : ∀ line ∈ front, '\n' ∉ line :=
      fun line hline => hlines line (List.mem_append_left _ hline)
    rw [htext, ofText_closed, Text.splitOn_joinWith hne hfront]
    simp [hne]

/-- **Which lines are read back**: all but those of a closed buffer without lines, and those of an
open one with an empty last line. -/
theorem ofText_toText_iff (hlines : b.HasSingleLines) :
    ofText b.toText = b ↔
      ¬(b.lines = [] ∧ b.closed = true) ∧ ¬(b.closed = false ∧ b.lines.getLast? = some []) := by
  obtain ⟨lines, closed⟩ := b
  rcases List.eq_nil_or_concat lines with rfl | ⟨front, last, rfl⟩
  · cases closed <;> simp [toText, joinWith, ofText_nil]
  rw [List.concat_eq_append] at hlines ⊢
  cases closed with
  | true => simp [ofText_toText_closed hlines]
  | false =>
    by_cases hlast : last = []
    · subst hlast
      simp [ofText_toText_emptyLast hlines]
    · simp [ofText_toText_open hlines hlast, hlast]

/-- Reading lines that have been written down finds no more of them. -/
theorem length_ofText_toText_le {b : LineBuffer} (hlines : b.HasSingleLines) :
    (ofText b.toText).lines.length ≤ b.lines.length := by
  by_cases hsame : ofText b.toText = b
  · exact Nat.le_of_eq (by rw [hsame])
  · rw [ofText_toText_iff hlines, not_and_or, not_not, not_not] at hsame
    obtain ⟨lines, closed⟩ := b
    rcases hsame with ⟨hnil, -⟩ | ⟨hopen, hlast⟩
    · obtain rfl : lines = [] := hnil
      simp [toText, joinWith, ofText_nil]
    · obtain ⟨front, rfl⟩ := List.getLast?_eq_some_iff.1 hlast
      obtain rfl : closed = false := hopen
      simp [ofText_toText_emptyLast hlines]

/-! ### Lines by number -/

/-- The lines whose numbers satisfy a condition, where the first line has number `first`. -/
def linesFrom (first : Nat) (p : Nat → Bool) (lines : List Text) : List Text :=
  ((lines.zipIdx first).filter fun entry => p entry.2).map Prod.fst

/-- The lines of a buffer whose numbers satisfy a condition. -/
def linesWhere (b : LineBuffer) (p : Nat → Bool) : List Text :=
  linesFrom 1 p b.lines

variable {first : Nat} {p : Nat → Bool} {lines others : List Text}

theorem linesFrom_append :
    linesFrom first p (lines ++ others) =
      linesFrom first p lines ++ linesFrom (first + lines.length) p others := by
  rw [linesFrom, List.zipIdx_append, List.filter_append, List.map_append]
  rfl

theorem linesFrom_eq_self (h : ∀ n, first ≤ n → n < first + lines.length → p n = true) :
    linesFrom first p lines = lines := by
  rw [linesFrom, List.filter_eq_self.2 fun entry hentry => ?_, List.zipIdx_map_fst]
  exact h entry.2 (List.le_snd_of_mem_zipIdx hentry) (List.snd_lt_add_of_mem_zipIdx hentry)

theorem linesFrom_eq_nil (h : ∀ n, first ≤ n → n < first + lines.length → p n = false) :
    linesFrom first p lines = [] := by
  rw [linesFrom, List.filter_eq_nil_iff.2 fun entry hentry => ?_, List.map_nil]
  rw [h entry.2 (List.le_snd_of_mem_zipIdx hentry) (List.snd_lt_add_of_mem_zipIdx hentry)]
  exact Bool.false_ne_true

/-- A condition that holds of all numbers but those of a middle part keeps the lines around it. -/
theorem linesWhere_eq {before middle after : List Text} (hcut : b.lines = before ++ middle ++ after)
    (hbefore : ∀ n, 1 ≤ n → n ≤ before.length → p n = true)
    (hmiddle : ∀ n, before.length < n → n ≤ (before ++ middle).length → p n = false)
    (hafter : ∀ n, (before ++ middle).length < n → n ≤ b.lines.length → p n = true) :
    b.linesWhere p = before ++ after := by
  have hlength : (before ++ middle).length = before.length + middle.length := List.length_append
  have hall : b.lines.length = (before ++ middle).length + after.length := by
    rw [hcut, List.length_append]
  rw [linesWhere, hcut, linesFrom_append, linesFrom_append, linesFrom_eq_self, linesFrom_eq_nil,
    linesFrom_eq_self, List.append_nil]
  · exact fun n hn hlt => hafter n (by omega) (by omega)
  · exact fun n hn hlt => hmiddle n (by omega) (by omega)
  · exact fun n hn hlt => hbefore n hn (by omega)

theorem linesWhere_le (b : LineBuffer) (last : Nat) :
    b.linesWhere (· ≤ last) = b.lines.take last := by
  have hcut : b.lines = b.lines.take last ++ b.lines.drop last ++ [] := by simp
  rw [linesWhere_eq hcut, List.append_nil]
  all_goals simp only [List.length_append, List.length_take, List.length_drop,
    decide_eq_true_eq, decide_eq_false_iff_not]
  all_goals omega

theorem linesWhere_lt (b : LineBuffer) (last : Nat) :
    b.linesWhere (last < ·) = b.lines.drop last := by
  have hcut : b.lines = [] ++ b.lines.take last ++ b.lines.drop last := by simp
  rw [linesWhere_eq hcut, List.nil_append]
  all_goals simp only [List.nil_append, List.length_nil, List.length_take,
    decide_eq_true_eq, decide_eq_false_iff_not]
  all_goals omega

theorem linesWhere_outside (b : LineBuffer) {first last : Nat} (hfirst : 1 ≤ first)
    (hlast : first ≤ last) :
    b.linesWhere (fun n => ¬(first ≤ n ∧ n ≤ last)) =
      b.lines.take (first - 1) ++ b.lines.drop last := by
  -- The lines in the range are a middle, with others in front and behind.
  have hcut : b.lines = b.lines.take (first - 1) ++ (b.lines.take last).drop (first - 1) ++
      b.lines.drop last := by
    have hfront : b.lines.take (first - 1) = (b.lines.take last).take (first - 1) := by
      rw [List.take_take, Nat.min_eq_left (by omega)]
    rw [hfront, List.take_append_drop, List.take_append_drop]
  rw [linesWhere_eq hcut]
  all_goals simp only [List.length_append, List.length_take, List.length_drop,
    decide_eq_true_eq, decide_eq_false_iff_not]
  all_goals omega

end LineBuffer

open LineBuffer

/-! ### Edits -/

/-- An edit of a text by line numbers. -/
inductive LineEdit where
  /-- Add the lines of `content` after a line; 0 is the top. -/
  | add (after : Nat) (content : Text)
  /-- Remove the lines from `start` to `stop`. -/
  | remove (start stop : Nat)
  /-- Replace a line by the lines of `content`. -/
  | update (line : Nat) (content : Text)

namespace LineEdit

/-- The text that an edit leaves. -/
def textAfter (t : Text) : LineEdit → Text
  | add after content => t.addLines after content
  | remove start stop => t.removeLines start stop
  | update line content => t.updateLine line content

/-- The lines that an edit should leave, and whether the last of them is closed. -/
def outcome (t : Text) : LineEdit → LineBuffer
  | add after content =>
    let b := ofText t
    let last := min after b.lines.length
    ⟨b.linesWhere (· ≤ last) ++ (ofText content).lines ++ b.linesWhere (last < ·),
      b.closed || t.isEmpty⟩
  | remove start stop =>
    let b := ofText t
    let first := max 1 (min start stop)
    let last := min (max start stop) b.lines.length
    ⟨b.linesWhere fun n => ¬(first ≤ n ∧ n ≤ last), b.closed⟩
  | update line content =>
    let b := ofText t
    let target := max 1 (min line b.lines.length)
    if t = [] then ⟨(ofText content).lines, true⟩
    else
      ⟨b.linesWhere (· < target) ++ (ofText content).lines ++ b.linesWhere (target < ·), b.closed⟩

variable {t : Text}

/-- An edit writes down the lines that it should leave. -/
theorem textAfter_eq (t : Text) (change : LineEdit) :
    change.textAfter t = (change.outcome t).toText := by
  cases change with
  | add after content =>
    have hempty : (ofText t).lines.isEmpty = t.isEmpty := by
      rw [Bool.eq_iff_iff, List.isEmpty_iff, List.isEmpty_iff, lines_ofText_eq_nil_iff]
    simp only [textAfter, outcome, Text.addLines, insertAfter, linesWhere_le, linesWhere_lt, hempty]
  | remove start stop =>
    simp only [textAfter, outcome, Text.removeLines, LineBuffer.remove]
    split
    · rename_i hnone
      -- No line is in the range, so leaving out those that are leaves out none.
      have hall : (ofText t).linesWhere (fun n => ¬(max 1 (min start stop) ≤ n ∧
          n ≤ min (max start stop) (ofText t).lines.length)) = (ofText t).lines := by
        refine linesFrom_eq_self fun n _ _ => ?_
        rw [decide_eq_true_eq]
        omega
      rw [hall]
    · rename_i hsome
      rw [linesWhere_outside _ (by omega) (by omega)]
  | update line content =>
    simp only [textAfter, outcome, Text.updateLine, LineBuffer.replace, lines_ofText_eq_nil_iff]
    split
    · rfl
    · -- The number is brought into the range of the lines, so one line is replaced.
      have hbefore : (ofText t).linesWhere (· < max 1 (min line (ofText t).lines.length)) =
          (ofText t).lines.take (max 1 (min line (ofText t).lines.length) - 1) := by
        rw [← linesWhere_le]
        congr 1
        funext n
        rw [decide_eq_decide]
        omega
      have hbehind : max 1 (min line (ofText t).lines.length) - 1 + 1 =
          max 1 (min line (ofText t).lines.length) := by omega
      rw [hbefore, linesWhere_lt, hbehind]

/-- Every line that an edit should leave is one line. -/
theorem hasSingleLines_outcome (t : Text) (change : LineEdit) :
    (change.outcome t).HasSingleLines := by
  have hkept : ∀ p, ∀ line ∈ (ofText t).linesWhere p, '\n' ∉ line := by
    intro p line hline
    obtain ⟨entry, hentry, rfl⟩ := List.mem_map.1 hline
    exact hasSingleLines_ofText t _ (List.fst_mem_of_mem_zipIdx (List.mem_filter.1 hentry).1)
  -- Adding and replacing splice the lines of the content between lines that were there.
  have hspliced : ∀ p q content, ∀ line ∈ (ofText t).linesWhere p ++ (ofText content).lines ++
      (ofText t).linesWhere q, '\n' ∉ line := by
    intro p q content line hline
    simp only [List.mem_append] at hline
    rcases hline with (hline | hline) | hline
    · exact hkept p line hline
    · exact hasSingleLines_ofText content line hline
    · exact hkept q line hline
  cases change with
  | add after content => exact hspliced _ _ content
  | remove start stop =>
    intro line hline
    simp only [outcome] at hline
    exact hkept _ line hline
  | update number content =>
    rw [outcome]
    split
    · exact hasSingleLines_ofText content
    · exact hspliced _ _ content

/-- **An edit by line numbers leaves exactly the lines that it should leave**, and a closed last
line if there should be one, but for two cases.  Where no line is left, the text is empty, and
nothing in it is closed.  Where the last line is empty and not closed, it is a line no more. -/
theorem ofText_textAfter_iff (t : Text) (change : LineEdit) :
    (ofText (change.textAfter t) = change.outcome t ↔
        ¬((change.outcome t).lines = [] ∧ (change.outcome t).closed = true) ∧
          ¬((change.outcome t).closed = false ∧ (change.outcome t).lines.getLast? = some [])) ∧
      ((change.outcome t).lines = [] → change.textAfter t = []) ∧
      ((change.outcome t).closed = false → (change.outcome t).lines.getLast? = some [] →
        (ofText (change.textAfter t)).lines = (change.outcome t).lines.dropLast) ∧
      (ofText t).toText = t := by
  have hlines := hasSingleLines_outcome t change
  rw [textAfter_eq]
  refine ⟨ofText_toText_iff hlines, fun hnil => ?_, fun hopen hlast => ?_, toText_ofText t⟩
  · rw [toText, hnil]
    simp [joinWith]
  · -- What follows holds for any buffer that ends with an empty line and no break.
    generalize change.outcome t = b at hlines hopen hlast
    obtain ⟨lines, closed⟩ := b
    obtain ⟨front, rfl⟩ := List.getLast?_eq_some_iff.1 hlast
    obtain rfl : closed = false := hopen
    rw [ofText_toText_emptyLast hlines, List.dropLast_concat]

/-- Of the three lines, the second one is empty.  Without it the others are left as they are, but it
is lost itself where it comes last, and a text without lines is empty. -/
theorem ofText_textAfter_removedLines :
    ofText ((remove 2 2).textAfter "a\n\nb".toList) = ⟨[['a'], ['b']], false⟩ ∧
      (ofText ((remove 3 3).textAfter "a\n\nb".toList)).lines = [['a']] ∧
      ofText ((remove 3 3).textAfter "a\n\nb".toList) ≠ (remove 3 3).outcome "a\n\nb".toList ∧
      (remove 1 9).textAfter "a\n\nb\n".toList = [] :=
  ⟨(ofText_textAfter_iff _ _).1.2 (by decide), (ofText_textAfter_iff _ _).2.2.1 rfl rfl,
    fun hsame => ((ofText_textAfter_iff _ _).1.1 hsame).2 ⟨rfl, rfl⟩,
    (ofText_textAfter_iff _ _).2.1 rfl⟩

end LineEdit

/-! ### A line in place of itself -/

namespace Text

variable {t line : Text} {n : Nat}

/-- A line is replaced between the lines around it. -/
theorem updateLine_eq {before after : List Text}
    (h : (ofText t).lines = before ++ [line] ++ after) (content : Text) :
    t.updateLine (before.length + 1) content =
      toText ⟨before ++ (ofText content).lines ++ after, (ofText t).closed⟩ := by
  have hne : (ofText t).lines ≠ [] := by simp [h]
  have hposition : max 1 (min (before.length + 1) (ofText t).lines.length) - 1 = before.length := by
    simp only [h, List.length_append, List.length_singleton]
    omega
  have htake : (ofText t).lines.take before.length = before := by simp [h]
  have hdrop : (ofText t).lines.drop (before.length + 1) = after := by simp [h]
  simp only [Text.updateLine, replace, if_neg hne, hposition, htake, hdrop]

/-- One line is taken out from between the lines around it. -/
theorem removeLines_eq {before after : List Text}
    (h : (ofText t).lines = before ++ [line] ++ after) :
    t.removeLines (before.length + 1) (before.length + 1) =
      toText ⟨before ++ after, (ofText t).closed⟩ := by
  have hfirst : max 1 (min (before.length + 1) (before.length + 1)) = before.length + 1 := by omega
  have hlast : min (max (before.length + 1) (before.length + 1)) (ofText t).lines.length =
      before.length + 1 := by
    simp only [h, List.length_append, List.length_singleton]
    omega
  have htake : (ofText t).lines.take before.length = before := by simp [h]
  have hdrop : (ofText t).lines.drop (before.length + 1) = after := by simp [h]
  simp only [Text.removeLines, remove, hfirst, hlast, Nat.lt_irrefl, if_false,
    Nat.add_sub_cancel, htake, hdrop]

/-- **A line is replaced by itself exactly if it is not empty.**  An empty content has no lines, and
so takes the line out.  With its newline, every line is replaced by itself. -/
theorem updateLine_line_iff (h : (ofText t).lines[n]? = some line) :
    (t.updateLine (n + 1) line = t ↔ line ≠ []) ∧
      t.updateLine (n + 1) (line ++ ['\n']) = t ∧
      (line = [] → t.updateLine (n + 1) line = t.removeLines (n + 1) (n + 1)) := by
  have hfree : '\n' ∉ line := hasSingleLines_ofText t line (List.mem_of_getElem? h)
  obtain ⟨before, after, hlines, rfl⟩ := exists_pieces_eq h
  have hwhole : toText ⟨before ++ [line] ++ after, (ofText t).closed⟩ = t := by
    rw [← hlines]
    exact toText_ofText t
  have hupdate := updateLine_eq hlines
  refine ⟨⟨?_, fun hne => ?_⟩, ?_, ?_⟩
  · rintro hsame rfl
    -- The text would have one line less than it has.
    have hsub : (before ++ after).Sublist (before ++ [[]] ++ after) :=
      (List.sublist_append_left before [[]]).append (List.Sublist.refl after)
    have hfewer : HasSingleLines ⟨before ++ after, (ofText t).closed⟩ := fun other hother =>
      hasSingleLines_ofText t other (hlines ▸ hsub.subset hother)
    have hlength := length_ofText_toText_le hfewer
    rw [hupdate, ofText_nil, List.append_nil] at hsame
    rw [hsame, hlines] at hlength
    simp only [List.length_append, List.length_singleton] at hlength
    omega
  · rw [hupdate, lines_ofText_of_newline_not_mem hne hfree, hwhole]
  · rw [hupdate, ofText_closed, Text.splitOn_of_not_mem hfree, hwhole]
  · rintro rfl
    rw [hupdate, removeLines_eq hlines, ofText_nil, List.append_nil]

/-- Blank lines, a line with a carriage return and a last line without a newline are replaced by
themselves.  The empty line between them is taken out, or kept with its newline. -/
theorem updateLine_line_mixedLines :
    (ofText "a\r\n \n\nÉ".toList).lines = ["a\r".toList, [' '], [], ['É']] ∧
      updateLine "a\r\n \n\nÉ".toList 1 "a\r".toList = "a\r\n \n\nÉ".toList ∧
      updateLine "a\r\n \n\nÉ".toList 2 [' '] = "a\r\n \n\nÉ".toList ∧
      updateLine "a\r\n \n\nÉ".toList 4 ['É'] = "a\r\n \n\nÉ".toList ∧
      updateLine "a\r\n \n\nÉ".toList 3 ['\n'] = "a\r\n \n\nÉ".toList ∧
      updateLine "a\r\n \n\nÉ".toList 3 [] = removeLines "a\r\n \n\nÉ".toList 3 3 := by
  have hlines : (ofText "a\r\n \n\nÉ".toList).lines = ["a\r".toList, [' '], [], ['É']] := rfl
  have hthird : (ofText "a\r\n \n\nÉ".toList).lines[2]? = some [] := rfl
  have hempty := updateLine_line_iff hthird
  exact ⟨hlines, (updateLine_line_iff (n := 0) rfl).1.2 (by decide),
    (updateLine_line_iff (n := 1) rfl).1.2 (by decide),
    (updateLine_line_iff (n := 3) rfl).1.2 (by decide), hempty.2.1, hempty.2.2 rfl⟩

/-- An empty line is not replaced by itself but taken out. -/
theorem updateLine_line_emptyLine :
    (ofText "a\n\nb\n".toList).lines[1]? = some [] ∧
      updateLine "a\n\nb\n".toList 2 [] = "a\nb\n".toList ∧
      updateLine "a\n\nb\n".toList 2 [] ≠ "a\n\nb\n".toList := by
  decide

end Text

end SyntaxEdit
