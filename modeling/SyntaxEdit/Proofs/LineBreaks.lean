/-
The line breaks that a text uses.

* `Text.hasPairedBreaks` — carriage returns and newlines stand in pairs only;
* `Text.hasClosedReturns` — every carriage return has a newline directly behind it;
* `Text.splitsPair` — an offset between a carriage return and its newline;
* `hasPairedBreaks_append`, `hasPairedBreaks_of_append` — paired texts can be joined, and can be cut
  wherever no pair is split;
* `hasPairedBreaks_withBreaks`, `return_not_mem_of_mem_rows` — writing and reading lines.
-/
import SyntaxEdit.Proofs.Splitting
import SyntaxEdit.Proofs.Trimming
import SyntaxEdit.Text.LineBreak

namespace SyntaxEdit

namespace Text

/-- Whether carriage returns and newlines stand in pairs only. -/
def hasPairedBreaks : Text → Bool
  | [] => true
  | '\r' :: '\n' :: rest => hasPairedBreaks rest
  | c :: rest => !isBreak c && hasPairedBreaks rest

/-- Whether every carriage return has a newline directly behind it. -/
def hasClosedReturns : Text → Bool
  | [] => true
  | c :: rest => (c ≠ '\r' || rest.head? = some '\n') && hasClosedReturns rest

/-- Whether an offset stands between a carriage return and its newline. -/
def splitsPair (t : Text) (offset : Nat) : Bool :=
  match cut? t offset with
  | some (before, after) => before.getLast? = some '\r' && after.head? = some '\n'
  | none => false

variable {s t : Text}

/-! ### Pairs -/

theorem hasPairedBreaks_cons_iff {c : Char} :
    hasPairedBreaks (c :: t) = true ↔
      (isBreak c = false ∧ hasPairedBreaks t = true) ∨
        (c = '\r' ∧ ∃ rest, t = '\n' :: rest ∧ hasPairedBreaks rest = true) := by
  constructor
  · intro h
    unfold hasPairedBreaks at h
    split at h
    · rename_i heq
      cases heq
    · rename_i rest heq
      obtain ⟨rfl, rfl⟩ := List.cons.inj heq
      exact Or.inr ⟨rfl, rest, rfl, h⟩
    · rename_i heq
      obtain ⟨rfl, rfl⟩ := List.cons.inj heq
      exact Or.inl (by simpa using h)
  · rintro (⟨hc, ht⟩ | ⟨rfl, rest, rfl, hrest⟩)
    · have hne : c ≠ '\r' := by
        rintro rfl
        cases hc
      unfold hasPairedBreaks
      split
      · rename_i heq
        cases heq
      · rename_i heq
        exact absurd (List.cons.inj heq).1 hne
      · rename_i heq
        obtain ⟨rfl, rfl⟩ := List.cons.inj heq
        simp [hc, ht]
    · exact hrest

/-- Paired texts one after the other are paired. -/
theorem hasPairedBreaks_append (hs : hasPairedBreaks s = true) (ht : hasPairedBreaks t = true) :
    hasPairedBreaks (s ++ t) = true := by
  fun_induction hasPairedBreaks s with
  | case1 => exact ht
  | case2 rest ih => exact ih hs
  | case3 c rest _ ih =>
    obtain ⟨hc, hrest⟩ := Bool.and_eq_true_iff.1 hs
    exact hasPairedBreaks_cons_iff.2 (.inl ⟨by simpa using hc, ih hrest⟩)

/-- A paired text can be cut wherever no pair is split. -/
theorem hasPairedBreaks_of_append (h : hasPairedBreaks (s ++ t) = true)
    (hcut : s.getLast? = some '\r' → t.head? ≠ some '\n') :
    hasPairedBreaks s = true ∧ hasPairedBreaks t = true := by
  -- The recursion takes a pair, or one character, off the front.
  fun_induction hasPairedBreaks s with
  | case1 => exact ⟨rfl, h⟩
  | case2 rest ih => exact ih h fun hlast => hcut (by simp [List.getLast?_cons, hlast])
  | case3 c rest hpair ih =>
    rcases hasPairedBreaks_cons_iff.1 h with ⟨hc, hrest⟩ | ⟨rfl, back, hback, -⟩
    · obtain ⟨hfront, ht⟩ := ih hrest fun hlast => hcut (by simp [List.getLast?_cons, hlast])
      exact ⟨by simp [hc, hfront], ht⟩
    · -- The newline of this return is behind the cut, or in `s`, where the two would be one pair.
      cases rest with
      | nil => exact absurd (by rw [show t = '\n' :: back from hback]; rfl) (hcut rfl)
      | cons d rest =>
        obtain ⟨rfl, -⟩ := List.cons.inj hback
        exact absurd rfl (hpair rest rfl)

/-- In a paired text, a newline stands behind every carriage return. -/
theorem head?_of_hasPairedBreaks (h : hasPairedBreaks (s ++ '\r' :: t) = true) :
    t.head? = some '\n' := by
  fun_induction hasPairedBreaks s with
  | case1 =>
    rcases hasPairedBreaks_cons_iff.1 h with ⟨hc, -⟩ | ⟨-, rest, rfl, -⟩
    · cases hc
    · rfl
  | case2 rest ih => exact ih h
  | case3 c rest hpair ih =>
    rcases hasPairedBreaks_cons_iff.1 h with ⟨-, hrest⟩ | ⟨rfl, back, hback, -⟩
    · exact ih hrest
    · -- If `c` is a return, its newline comes next, and the two would have been one pair.
      cases rest with
      | nil => cases hback
      | cons d rest =>
        obtain ⟨rfl, -⟩ := List.cons.inj hback
        exact absurd rfl (hpair rest rfl)

/-- At an offset that splits no pair, no newline follows a carriage return. -/
theorem head?_ne_of_splitsPair_eq_false (h : splitsPair (s ++ t) (byteLength s) = false)
    (hlast : s.getLast? = some '\r') : t.head? ≠ some '\n' := by
  intro hhead
  rw [splitsPair, cut?_append] at h
  simp [hlast, hhead] at h

theorem splitsPair_of_return_not_mem (h : '\r' ∉ t) (offset : Nat) :
    splitsPair t offset = false := by
  rw [splitsPair]
  split
  · rename_i before after hcut
    obtain ⟨rfl, -⟩ := cut?_eq_some_iff.1 hcut
    have hlast : before.getLast? ≠ some '\r' := fun hlast =>
      h (List.mem_append_left _ (List.mem_of_getLast? hlast))
    simp [hlast]
  · rfl

/-- A paired text can be cut at every offset that splits no pair. -/
theorem hasPairedBreaks_of_splitsPair_eq_false (h : hasPairedBreaks (s ++ t) = true)
    (hcut : splitsPair (s ++ t) (byteLength s) = false) :
    hasPairedBreaks s = true ∧ hasPairedBreaks t = true :=
  hasPairedBreaks_of_append h (head?_ne_of_splitsPair_eq_false hcut)

theorem hasPairedBreaks_of_forall (h : ∀ c ∈ t, isBreak c = false) : hasPairedBreaks t = true := by
  induction t with
  | nil => rfl
  | cons c t ih =>
    obtain ⟨hc, ht⟩ := List.forall_mem_cons.1 h
    exact hasPairedBreaks_cons_iff.2 (.inl ⟨hc, ih ht⟩)

/-! ### The line break of a text -/

theorem occursIn_of_hasPairedBreaks (h : hasPairedBreaks t = true) (hbreak : '\n' ∈ t) :
    occursIn ['\r', '\n'] t = true := by
  fun_induction hasPairedBreaks t with
  | case1 => cases hbreak
  | case2 rest ih => simp [occursIn]
  | case3 c rest _ ih =>
    obtain ⟨hc, hrest⟩ := Bool.and_eq_true_iff.1 h
    have hne : c ≠ '\n' := by
      rintro rfl
      cases hc
    rcases List.mem_cons.1 hbreak with rfl | hbreak
    · exact absurd rfl hne
    · simp [occursIn, ih hrest hbreak]

/-- A text with pairs only goes on with pairs. -/
theorem ofText_of_hasPairedBreaks (h : hasPairedBreaks t = true) (hbreak : '\n' ∈ t) :
    LineBreak.ofText t = .returnNewline := by
  rw [LineBreak.ofText, if_pos (occursIn_of_hasPairedBreaks h hbreak)]

/-- A text without carriage returns goes on without them. -/
theorem ofText_of_return_not_mem (h : '\r' ∉ t) : LineBreak.ofText t = .newline := by
  have hoccurs : occursIn ['\r', '\n'] t = false := by
    induction t with
    | nil => rfl
    | cons c t ih =>
      obtain ⟨hc, ht⟩ := not_or.1 (mt List.mem_cons.2 h)
      simp [occursIn, List.isPrefixOf, hc, ih ht]
  rw [LineBreak.ofText, hoccurs]
  rfl

/-- Plain newlines written as pairs give a paired text. -/
theorem hasPairedBreaks_withBreaks (h : '\r' ∉ t) :
    hasPairedBreaks (withBreaks .returnNewline t) = true := by
  induction t with
  | nil => rfl
  | cons c t ih =>
    obtain ⟨hc, ht⟩ := not_or.1 (mt List.mem_cons.2 h)
    rw [withBreaks, replaceChar, List.flatMap_cons]
    by_cases hnewline : c = '\n'
    · rw [if_pos hnewline]
      exact ih ht
    · rw [if_neg hnewline]
      refine hasPairedBreaks_cons_iff.2 (.inl ⟨?_, ih ht⟩)
      simp [isBreak, hnewline, Ne.symm hc]

theorem withBreaks_newline (t : Text) : withBreaks .newline t = t := by
  induction t with
  | nil => rfl
  | cons c t ih =>
    rw [withBreaks, replaceChar, List.flatMap_cons]
    by_cases hnewline : c = '\n'
    · rw [if_pos hnewline, hnewline]
      exact congrArg ('\n' :: ·) ih
    · rw [if_neg hnewline]
      exact congrArg (c :: ·) ih

/-! ### Closed returns -/

theorem getLast?_of_getLast?_cons_ne {c d : Char} (h : (c :: s).getLast? ≠ some d) :
    s.getLast? ≠ some d := by
  cases s with
  | nil => simp
  | cons e s => simpa using h

theorem hasClosedReturns_of_append (h : hasClosedReturns (s ++ t) = true) :
    hasClosedReturns t = true := by
  induction s with
  | nil => exact h
  | cons c s ih => exact ih (Bool.and_eq_true_iff.1 h).2

theorem head?_of_hasClosedReturns (h : hasClosedReturns (s ++ '\r' :: t) = true) :
    t.head? = some '\n' := by
  have hreturn := (Bool.and_eq_true_iff.1 (hasClosedReturns_of_append h)).1
  simpa using hreturn

/-- A text that ends in no carriage return keeps its returns closed where it stands alone. -/
theorem hasClosedReturns_of_append_left (h : hasClosedReturns (s ++ t) = true)
    (hs : s.getLast? ≠ some '\r') : hasClosedReturns s = true := by
  induction s with
  | nil => rfl
  | cons c s ih =>
    obtain ⟨hc, hrest⟩ := Bool.and_eq_true_iff.1 h
    refine Bool.and_eq_true_iff.2 ⟨?_, ih hrest (getLast?_of_getLast?_cons_ne hs)⟩
    cases s with
    | nil => simpa using hs
    | cons d s => exact hc

theorem return_not_mem_of_newline_not_mem (h : hasClosedReturns t = true) (hbreak : '\n' ∉ t) :
    '\r' ∉ t := by
  intro hreturn
  obtain ⟨front, back, rfl⟩ := List.append_of_mem hreturn
  have hhead := head?_of_hasClosedReturns h
  exact hbreak (List.mem_append_right _ (List.mem_cons_of_mem _ (List.mem_of_mem_head? hhead)))

theorem return_not_mem_dropReturn {line : Text} (h : hasClosedReturns (line ++ '\n' :: t) = true)
    (hbreak : '\n' ∉ line) : '\r' ∉ dropReturn line := by
  -- Without its last return, if it has one, a line has no character before a newline.
  have hfront : ∀ front back, line = front ++ back → (back = [] ∨ back = ['\r']) →
      front.getLast? ≠ some '\r' → '\r' ∉ front := by
    rintro front back rfl - hlast
    rw [List.append_assoc] at h
    exact return_not_mem_of_newline_not_mem (hasClosedReturns_of_append_left h hlast)
      fun hmem => hbreak (List.mem_append_left _ hmem)
  rw [dropReturn]
  split
  · rename_i hlast
    obtain ⟨front, rfl⟩ := List.getLast?_eq_some_iff.1 hlast
    rw [List.dropLast_concat]
    refine hfront front ['\r'] rfl (.inr rfl) fun hagain => ?_
    obtain ⟨more, rfl⟩ := List.getLast?_eq_some_iff.1 hagain
    simp only [List.append_assoc, List.cons_append, List.nil_append] at h
    have hhead := head?_of_hasClosedReturns h
    cases hhead
  · rename_i hlast
    exact hfront line [] (List.append_nil line).symm (.inl rfl) hlast

/-- The lines of a text with closed returns hold none. -/
theorem return_not_mem_of_mem_rows (h : hasClosedReturns t = true) {line : Text}
    (hline : line ∈ rows t) : '\r' ∉ line := by
  -- Rows are pieces between newlines, and all but the last may have lost a return at their end.
  have hpieces : ∀ pieces : List Text, (∀ piece ∈ pieces, '\n' ∉ piece) →
      hasClosedReturns (joinWith ['\n'] pieces) = true →
      (∀ piece ∈ pieces.dropLast, '\r' ∉ dropReturn piece) ∧
        '\r' ∉ pieces.getLast?.getD [] := by
    intro pieces hfree hclosed
    induction pieces with
    | nil => simp
    | cons piece pieces ih =>
      obtain ⟨hpiece, hfree⟩ := List.forall_mem_cons.1 hfree
      cases pieces with
      | nil => exact ⟨by simp, return_not_mem_of_newline_not_mem hclosed hpiece⟩
      | cons next pieces =>
        rw [joinWith, List.append_assoc, List.singleton_append] at hclosed
        obtain ⟨hothers, hlast⟩ :=
          ih hfree (hasClosedReturns_of_append (s := piece ++ ['\n']) (by simpa using hclosed))
        refine ⟨?_, by simpa using hlast⟩
        rw [List.dropLast_cons_cons, List.forall_mem_cons]
        exact ⟨return_not_mem_dropReturn hclosed hpiece, hothers⟩
  obtain ⟨hothers, hlast⟩ := hpieces (splitOn '\n' t) (fun _ => not_mem_of_mem_splitOn)
    (by rwa [joinWith_splitOn])
  rw [rows] at hline
  rcases List.mem_append.1 hline with hline | hline
  · obtain ⟨piece, hpiece, rfl⟩ := List.mem_map.1 hline
    exact hothers piece hpiece
  · split at hline
    · cases hline
    · rw [List.mem_singleton.1 hline]
      exact hlast

/-- Plain newlines leave no return behind in a text with closed returns. -/
theorem return_not_mem_unifyBreaks (h : hasClosedReturns t = true) : '\r' ∉ unifyBreaks t := by
  fun_induction unifyBreaks t with
  | case1 => simp
  | case2 rest ih => simpa using ih (hasClosedReturns_of_append (s := ['\r', '\n']) h)
  | case3 c rest hpair ih =>
    rw [List.mem_cons, not_or]
    refine ⟨?_, ih (Bool.and_eq_true_iff.1 h).2⟩
    rintro rfl
    have hhead := head?_of_hasClosedReturns (s := []) h
    obtain ⟨back, rfl⟩ := List.head?_eq_some_iff.1 hhead
    exact hpair back rfl rfl

end Text

end SyntaxEdit
