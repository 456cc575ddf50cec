/-
A script leads from the front of two lists to their back.

Every run of a script starts where the one before it stops, and the elements that it keeps stand in
both lists.  Runs that are moved and joined are rewritten a few at a time, and each rewriting leads
from the same place to the same place.

* `Run.FitsAt`, `Leads` — a run at a place in two lists, and runs from one place to another;
* `leads_runsBetween` — the first script leads from the front to the back;
* `Rewrites` — runs that can be put in the place of others, also between further runs;
* `Cursor.movesTo_moveUp`, `Cursor.movesTo_moveDown`, `rewrites_settle` — each move is one such
  rewriting, and so are all moves together;
* `leads_editScript` — so the script that is made in the end leads from the front to the back.
-/
import SyntaxEdit.Diff.Settle

namespace SyntaxEdit

/-! ### Equal elements at the ends of two lists -/

section Common

variable {α : Type} [DecidableEq α] {a b : List α} {k : Nat}

theorem commonFront_le (a b : List α) :
    commonFront a b ≤ a.length ∧ commonFront a b ≤ b.length := by
  fun_induction commonFront a b with
  | case1 x xs ys ih =>
    simp only [List.length_cons]
    omega
  | case2 x xs y ys hne => exact ⟨Nat.zero_le _, Nat.zero_le _⟩
  | case3 a b => exact ⟨Nat.zero_le _, Nat.zero_le _⟩

theorem getElem?_eq_of_lt_commonFront (hk : k < commonFront a b) : a[k]? = b[k]? := by
  fun_induction commonFront a b generalizing k with
  | case1 x xs ys ih =>
    cases k with
    | zero => rfl
    | succ k =>
      rw [List.getElem?_cons_succ, List.getElem?_cons_succ]
      exact ih (by omega)
  | case2 x xs y ys hne => exact absurd hk (Nat.not_lt_zero k)
  | case3 a b => exact absurd hk (Nat.not_lt_zero k)

theorem commonBack_le (a b : List α) :
    commonBack a b ≤ a.length ∧ commonBack a b ≤ b.length := by
  have h := commonFront_le a.reverse b.reverse
  rwa [List.length_reverse, List.length_reverse] at h

/-- Equal elements at the back, counted from where they start. -/
theorem getElem?_eq_of_lt_commonBack (hk : k < commonBack a b) :
    a[a.length - commonBack a b + k]? = b[b.length - commonBack a b + k]? := by
  obtain ⟨ha, hb⟩ := commonBack_le a b
  -- The element before last but `m` is the `m`-th of the reversed list.
  have h : a.reverse[commonBack a b - 1 - k]? = b.reverse[commonBack a b - 1 - k]? :=
    getElem?_eq_of_lt_commonFront (show _ < commonBack a b by omega)
  rw [List.getElem?_reverse (by omega), List.getElem?_reverse (by omega)] at h
  rwa [show a.length - 1 - (commonBack a b - 1 - k) = a.length - commonBack a b + k by omega,
    show b.length - 1 - (commonBack a b - 1 - k) = b.length - commonBack a b + k by omega] at h

end Common

/-! ### Lists that stand in others -/

section Standing

variable {α : Type} {whole part : List α} {i : Nat}

/-- Whether a list stands at a position of another. -/
def StandsAt (whole : List α) (i : Nat) (part : List α) : Prop :=
  ∀ k < part.length, whole[i + k]? = part[k]?

theorem standsAt_self (part : List α) : StandsAt part 0 part :=
  fun k _ => by rw [Nat.zero_add]

theorem StandsAt.drop (h : StandsAt whole i part) (x : Nat) :
    StandsAt whole (i + x) (part.drop x) := by
  intro k hk
  rw [List.length_drop] at hk
  rw [List.getElem?_drop, Nat.add_assoc]
  exact h (x + k) (by omega)

theorem StandsAt.take (h : StandsAt whole i part) (x : Nat) : StandsAt whole i (part.take x) := by
  intro k hk
  rw [List.length_take] at hk
  rw [List.getElem?_take_of_lt (by omega)]
  exact h k (by omega)

theorem standsAt_oldPart (r : Run) (a : List α) : StandsAt a r.old (r.oldPart a) := by
  have h := ((standsAt_self a).drop r.old).take r.oldLength
  rwa [Nat.zero_add] at h

theorem standsAt_newPart (r : Run) (b : List α) : StandsAt b r.new (r.newPart b) := by
  have h := ((standsAt_self b).drop r.new).take r.newLength
  rwa [Nat.zero_add] at h

variable [DecidableEq α] {wholeOld wholeNew a b : List α} {j : Nat}

theorem StandsAt.pairs_commonFront (ha : StandsAt wholeOld i a) (hb : StandsAt wholeNew j b) :
    ∀ k < commonFront a b, wholeOld[i + k]? = wholeNew[j + k]? := by
  intro k hk
  obtain ⟨hle, hle'⟩ := commonFront_le a b
  rw [ha k (by omega), hb k (by omega)]
  exact getElem?_eq_of_lt_commonFront hk

theorem StandsAt.pairs_commonBack (ha : StandsAt wholeOld i a) (hb : StandsAt wholeNew j b) :
    ∀ k < commonBack a b, wholeOld[i + (a.length - commonBack a b) + k]? =
      wholeNew[j + (b.length - commonBack a b) + k]? := by
  intro k hk
  obtain ⟨hle, hle'⟩ := commonBack_le a b
  rw [Nat.add_assoc, Nat.add_assoc, ha _ (by omega), hb _ (by omega)]
  exact getElem?_eq_of_lt_commonBack hk

end Standing

/-! ### Runs from one place to another -/

section Leads

variable {α : Type} {a b : List α} {r : Run} {runs runs' : List Run} {i j i' j' m n count : Nat}

/-- Whether a run stands at positions `i` and `j` of two lists. Its position in a list that it has
no elements of says nothing. -/
def Run.FitsAt (a b : List α) (r : Run) (i j : Nat) : Prop :=
  match r.kind with
  | .kept => r.old = i ∧ r.new = j ∧ ∀ k < r.length, a[i + k]? = b[j + k]?
  | .deleted => r.old = i
  | .inserted => r.new = j

/-- Whether runs lead from positions `i` and `j` of two lists to positions `i'` and `j'`. -/
def Leads (a b : List α) : List Run → Nat → Nat → Nat → Nat → Prop
  | [], i, j, i', j' => i = i' ∧ j = j'
  | r :: rest, i, j, i', j' =>
    r.FitsAt a b i j ∧ Leads a b rest (i + r.oldLength) (j + r.newLength) i' j'

theorem leads_append :
    Leads a b (runs ++ runs') i j i' j' ↔
      ∃ m n, Leads a b runs i j m n ∧ Leads a b runs' m n i' j' := by
  induction runs generalizing i j with
  | nil =>
    constructor
    · exact fun h => ⟨i, j, ⟨rfl, rfl⟩, h⟩
    · rintro ⟨m, n, ⟨rfl, rfl⟩, h⟩
      exact h
  | cons r rest ih =>
    simp only [List.cons_append, Leads, ih]
    constructor
    · rintro ⟨hfits, m, n, hrest, h'⟩
      exact ⟨m, n, ⟨hfits, hrest⟩, h'⟩
    · rintro ⟨m, n, ⟨hfits, hrest⟩, h'⟩
      exact ⟨hfits, m, n, hrest, h'⟩

/-- Runs do not lead backwards. -/
theorem Leads.le (h : Leads a b runs i j i' j') : i ≤ i' ∧ j ≤ j' := by
  induction runs generalizing i j with
  | nil => exact ⟨Nat.le_of_eq h.1, Nat.le_of_eq h.2⟩
  | cons r rest ih =>
    have := ih h.2
    omega

theorem Run.lengths_eq_zero (h : r.length = 0) : r.oldLength = 0 ∧ r.newLength = 0 := by
  rw [Run.oldLength, Run.newLength, h, ite_self, ite_self]
  exact ⟨rfl, rfl⟩

/-- A run that is left out if it has no elements. -/
theorem leads_unless_empty (h : r.FitsAt a b i j) :
    Leads a b (if r.length = 0 then [] else [r]) i j (i + r.oldLength) (j + r.newLength) := by
  split
  case isTrue h0 =>
    rw [(Run.lengths_eq_zero h0).1, (Run.lengths_eq_zero h0).2]
    exact ⟨rfl, rfl⟩
  case isFalse => exact ⟨h, rfl, rfl⟩

theorem leads_keep (h : ∀ k < count, a[i + k]? = b[j + k]?) :
    Leads a b (Run.keep i j count) i j (i + count) (j + count) :=
  leads_unless_empty (r := ⟨.kept, i, j, count⟩) ⟨rfl, rfl, h⟩

theorem leads_delete (count : Nat) : Leads a b (Run.delete i j count) i j (i + count) j :=
  leads_unless_empty (r := ⟨.deleted, i, j, count⟩) rfl

theorem leads_insert (count : Nat) : Leads a b (Run.insert i j count) i j i (j + count) :=
  leads_unless_empty (r := ⟨.inserted, i, j, count⟩) rfl

/-- Some elements deleted and others inserted in their place. -/
theorem leads_replace (m n : Nat) :
    Leads a b (Run.delete i j m ++ Run.insert (i + m) j n) i j (i + m) (j + n) :=
  leads_append.2 ⟨i + m, j, leads_delete m, leads_insert n⟩

end Leads

/-! ### The first script -/

section Between

variable {α : Type} {wholeOld wholeNew a b : List α} {i j : Nat}

/-- Scripts for two parts of two lists make one for the lists. -/
theorem Leads.append_split {front back : List Run} {x y : Nat} (hx : x ≤ a.length)
    (hy : y ≤ b.length)
    (hfront : Leads wholeOld wholeNew front i j (i + (a.take x).length) (j + (b.take y).length))
    (hback : Leads wholeOld wholeNew back (i + x) (j + y) (i + x + (a.drop x).length)
      (j + y + (b.drop y).length)) :
    Leads wholeOld wholeNew (front ++ back) i j (i + a.length) (j + b.length) := by
  rw [List.length_take, List.length_take, Nat.min_eq_left hx, Nat.min_eq_left hy] at hfront
  rw [List.length_drop, List.length_drop, Nat.add_assoc, Nat.add_sub_cancel' hx, Nat.add_assoc,
    Nat.add_sub_cancel' hy] at hback
  exact leads_append.2 ⟨_, _, hfront, hback⟩

variable [DecidableEq α]

theorem leads_keep_commonBack {m n : Nat} (ha : StandsAt wholeOld i a)
    (hb : StandsAt wholeNew j b) (hm : m + commonBack a b = a.length)
    (hn : n + commonBack a b = b.length) :
    Leads wholeOld wholeNew (Run.keep (i + m) (j + n) (commonBack a b)) (i + m) (j + n)
      (i + a.length) (j + b.length) := by
  have hpairs := ha.pairs_commonBack hb
  rw [Nat.sub_eq_of_eq_add hm.symm, Nat.sub_eq_of_eq_add hn.symm] at hpairs
  rw [← hm, ← hn, ← Nat.add_assoc, ← Nat.add_assoc]
  exact leads_keep hpairs

/-- The script between two lists that stand in others leads from their front to their back. -/
theorem leads_runsBetween (ha : StandsAt wholeOld i a) (hb : StandsAt wholeNew j b) :
    Leads wholeOld wholeNew (runsBetween i j a b) i j (i + a.length) (j + b.length) := by
  -- The changed middle is split in two, and each half is a case of its own.
  fun_induction runsBetween i j a b with
  | case1 old new a b front back a' b' i j changed ihFront ihBack =>
    obtain ⟨hleFront, hleFront'⟩ := commonFront_le a b
    obtain ⟨hleBack, hleBack'⟩ := commonBack_le (a.drop front) (b.drop front)
    have hlength : a'.length + back = (a.drop front).length := by
      simp only [a', List.length_take, List.length_drop] at hleBack ⊢
      omega
    have hlength' : b'.length + back = (b.drop front).length := by
      simp only [b', List.length_take, List.length_drop] at hleBack' ⊢
      omega
    have hend : i + (a.drop front).length = old + a.length := by
      rw [List.length_drop, Nat.add_assoc, Nat.add_sub_cancel' hleFront]
    have hend' : j + (b.drop front).length = new + b.length := by
      rw [List.length_drop, Nat.add_assoc, Nat.add_sub_cancel' hleFront']
    -- Kept lines in front, the changed middle, and kept lines behind follow each other.
    have hkeepFront : Leads wholeOld wholeNew (Run.keep old new front) old new i j :=
      leads_keep (ha.pairs_commonFront hb)
    have hkeepBack : Leads wholeOld wholeNew (Run.keep (i + a'.length) (j + b'.length) back)
        (i + a'.length) (j + b'.length) (old + a.length) (new + b.length) := by
      rw [← hend, ← hend']
      exact leads_keep_commonBack (ha.drop front) (hb.drop front) hlength hlength'
    have hchanged :
        Leads wholeOld wholeNew changed i j (i + a'.length) (j + b'.length) := by
      have ha' : StandsAt wholeOld i a' := (ha.drop front).take _
      have hb' : StandsAt wholeNew j b' := (hb.drop front).take _
      simp only [changed]
      split
      case h_1 x y hmiddle =>
        split
        case isTrue h =>
          exact .append_split h.1 h.2.1 (ihFront x y h (ha'.take x) (hb'.take y))
            (ihBack x y h (ha'.drop x) (hb'.drop y))
        -- A point at a corner splits nothing, so the whole middle is replaced.
        case isFalse => exact leads_replace _ _
      case h_2 => exact leads_replace _ _
    exact leads_append.2 ⟨_, _, leads_append.2 ⟨_, _, hkeepFront, hchanged⟩, hkeepBack⟩

end Between

/-! ### Runs in the place of others -/

section Rewriting

variable {α : Type} {a b : List α} {r r' : Run} {s s' s'' : List Run} {i j count : Nat}

/-- Whether runs can be put in the place of others: where those lead from one place to another
inside the lists, so do these. -/
def Rewrites (a b : List α) (s s' : List Run) : Prop :=
  ∀ ⦃i j i' j' : Nat⦄, i' ≤ a.length → j' ≤ b.length → Leads a b s i j i' j' →
    Leads a b s' i j i' j'

theorem Rewrites.refl (s : List Run) : Rewrites a b s s :=
  fun _ _ _ _ _ _ h => h

theorem Rewrites.trans (h : Rewrites a b s s') (h' : Rewrites a b s' s'') : Rewrites a b s s'' :=
  fun _ _ _ _ hi hj hleads => h' hi hj (h hi hj hleads)

/-- Runs can also be put in the place of others between further runs. -/
theorem Rewrites.between (h : Rewrites a b s s') (front back : List Run) :
    Rewrites a b (front ++ s ++ back) (front ++ s' ++ back) := by
  intro i j i' j' hi hj hleads
  obtain ⟨m, n, hfront, hback⟩ := leads_append.1 hleads
  obtain ⟨m', n', hfront, hs⟩ := leads_append.1 hfront
  obtain ⟨hm, hn⟩ := hback.le
  exact leads_append.2 ⟨m, n,
    leads_append.2 ⟨m', n', hfront, h (by omega) (by omega) hs⟩, hback⟩

theorem rewrites_nil (h : r.length = 0) : Rewrites a b [r] [] := by
  rintro i j i' j' - - ⟨-, rfl, rfl⟩
  rw [(Run.lengths_eq_zero h).1, (Run.lengths_eq_zero h).2]
  exact ⟨rfl, rfl⟩

/-- A deletion and an insertion can change places. -/
theorem rewrites_swap (hr : r.kind ≠ .kept) (hr' : r'.kind ≠ .kept) (hne : r.kind ≠ r'.kind) :
    Rewrites a b [r, r'] [r', r] := by
  rintro i j i' j' - - hleads
  obtain ⟨kind, old, new, length⟩ := r
  obtain ⟨kind', old', new', length'⟩ := r'
  -- Neither has elements of the list that the other one has elements of.
  simp only [Leads, Run.FitsAt, Run.oldLength, Run.newLength] at hleads ⊢
  cases kind <;> cases kind' <;>
    simp only [ne_eq, not_true_eq_false, reduceCtorEq, if_true, if_false] at hr hr' hne hleads ⊢
  all_goals omega

/-- Two stretches of equal elements, one after the other, are one. -/
theorem pairs_append {n m : Nat} (h : ∀ k < n, a[i + k]? = b[j + k]?)
    (h' : ∀ k < m, a[i + n + k]? = b[j + n + k]?) : ∀ k < n + m, a[i + k]? = b[j + k]? := by
  intro k hk
  rcases Nat.lt_or_ge k n with hlt | hge
  · exact h k hlt
  · have := h' (k - n) (by omega)
    rwa [Nat.add_assoc, Nat.add_assoc, Nat.add_sub_cancel' hge] at this

/-- Two runs of one kind can be joined. -/
theorem rewrites_extend (h : r'.kind = r.kind) :
    Rewrites a b [r, r'] [r.extend r'.length] := by
  rintro i j i' j' - - hleads
  obtain ⟨kind, old, new, length⟩ := r
  obtain ⟨kind', old', new', length'⟩ := r'
  simp only at h
  subst h
  simp only [Leads, Run.FitsAt, Run.oldLength, Run.newLength, Run.extend] at hleads ⊢
  cases kind' with
  | kept =>
    obtain ⟨⟨hold, hnew, hpairs⟩, ⟨-, -, hpairs'⟩, hend⟩ := hleads
    exact ⟨⟨hold, hnew, pairs_append hpairs hpairs'⟩, by simpa [Nat.add_assoc] using hend⟩
  | deleted =>
    simp only [reduceCtorEq, if_true, if_false] at hleads ⊢
    omega
  | inserted =>
    simp only [reduceCtorEq, if_true, if_false] at hleads ⊢
    omega

/-- So can two runs of kept elements, with the positions that the second gives. -/
theorem rewrites_extend_moveUp (h : r.kind = .kept) (h' : r'.kind = .kept) :
    Rewrites a b [r, r'] [(r'.moveUp r.length).extend r.length] := by
  rintro i j i' j' - - hleads
  obtain ⟨_, old, new, length⟩ := r
  obtain ⟨_, old', new', length'⟩ := r'
  subst h h'
  simp only [Leads, Run.FitsAt, Run.oldLength, Run.newLength, Run.moveUp, Run.extend,
    reduceCtorEq, if_false] at hleads ⊢
  obtain ⟨⟨rfl, rfl, hpairs⟩, ⟨rfl, rfl, hpairs'⟩, rfl, rfl⟩ := hleads
  refine ⟨⟨Nat.add_sub_cancel .., Nat.add_sub_cancel .., ?_⟩, by omega, by omega⟩
  rw [Nat.add_comm length' length]
  exact pairs_append hpairs hpairs'

theorem rewrites_keepInFront (h : r.kind = .kept) (after : List Run) :
    Rewrites a b (r :: after) (r.keepInFront after) := by
  cases after with
  | nil => exact .refl _
  | cons next rest =>
    rw [Run.keepInFront]
    split
    case isTrue hnext => exact (rewrites_extend_moveUp h hnext).between [] rest
    case isFalse => exact .refl _

theorem rewrites_keepBehind (h : r.kind = .kept) (before : List Run) :
    Rewrites a b (before.reverse ++ [r]) (r.keepBehind before).reverse := by
  cases before with
  | nil => exact .refl _
  | cons previous rest =>
    rw [Run.keepBehind]
    split
    case isTrue hprevious =>
      have hjoined : Rewrites a b [previous, r] [previous.extend r.length] :=
        rewrites_extend (h.trans hprevious.symm)
      simpa using hjoined.between rest.reverse []
    case isFalse =>
      rw [List.reverse_cons (a := r)]
      exact .refl _

end Rewriting

/-! ### Insertions moved over equal elements -/

section Passing

variable {α : Type} {a b : List α} {r run previous next : Run} {count : Nat}

theorem Run.length_oldPart (h : r.old + r.oldLength ≤ a.length) :
    (r.oldPart a).length = r.oldLength := by
  rw [Run.oldPart, List.length_take, List.length_drop]
  omega

theorem Run.length_newPart (h : r.new + r.newLength ≤ b.length) :
    (r.newPart b).length = r.newLength := by
  rw [Run.newPart, List.length_take, List.length_drop]
  omega

variable [DecidableEq α]

/-- An insertion can be moved up over kept elements that end as it does, and these are found again
behind it. -/
theorem rewrites_up (hprevious : previous.kind = .kept) (hrun : run.kind = .inserted)
    (hcount : commonBack (previous.oldPart a) (run.newPart b) = count) :
    Rewrites a b [previous, run]
      [previous.dropBack count, run.moveUp count,
        ⟨.kept, previous.old + previous.length - count, run.new + run.newLength - count,
          count⟩] := by
  rintro i j i' j' hi hj hleads
  obtain ⟨hle, hle'⟩ := commonBack_le (previous.oldPart a) (run.newPart b)
  have hpassed := (standsAt_oldPart previous a).pairs_commonBack (standsAt_newPart run b)
  rw [hcount] at hle hle' hpassed
  obtain ⟨_, old, new, length⟩ := previous
  obtain ⟨_, old', new', length'⟩ := run
  subst hprevious hrun
  simp only [Leads, Run.FitsAt, Run.oldLength, Run.newLength, Run.moveUp, Run.dropBack,
    Nat.add_zero, reduceCtorEq, if_true, if_false] at hleads ⊢
  obtain ⟨⟨rfl, rfl, hpairs⟩, rfl, rfl, rfl⟩ := hleads
  rw [Run.length_oldPart hi] at hle hpassed
  rw [Run.length_newPart hj] at hle' hpassed
  simp only [Run.oldLength, Run.newLength, reduceCtorEq, if_false] at hle hle' hpassed
  -- The pairs that are not passed stay where they were.
  have hkept : ∀ k < length - count, a[old + k]? = b[new + k]? := fun k hk =>
    hpairs k (by omega)
  -- Where the inserted lines end, the passed pairs begin.
  have hnew : new + (length - count) + length' = new + length + (length' - count) := by omega
  refine ⟨⟨rfl, rfl, hkept⟩, by omega, ⟨by omega, by omega, ?_⟩, by omega, by omega⟩
  rwa [hnew]

/-- An insertion can be moved down over kept elements that start as it does, and these are found
again in front of it. -/
theorem rewrites_down (hrun : run.kind = .inserted) (hnext : next.kind = .kept)
    (hcount : commonFront (next.oldPart a) (run.newPart b) = count) :
    Rewrites a b [run, next]
      [⟨.kept, next.old, run.new, count⟩, run.moveDown count, next.dropFront count] := by
  rintro i j i' j' hi hj hleads
  obtain ⟨hle, hle'⟩ := commonFront_le (next.oldPart a) (run.newPart b)
  have hpassed := (standsAt_oldPart next a).pairs_commonFront (standsAt_newPart run b)
  rw [hcount] at hle hle' hpassed
  obtain ⟨_, old, new, length⟩ := run
  obtain ⟨_, old', new', length'⟩ := next
  subst hrun hnext
  simp only [Leads, Run.FitsAt, Run.oldLength, Run.newLength, Run.moveDown, Run.dropFront,
    Nat.add_zero, reduceCtorEq, if_true, if_false] at hleads ⊢
  obtain ⟨rfl, ⟨rfl, rfl, hpairs⟩, rfl, rfl⟩ := hleads
  have hleOld : count ≤ length' := by
    rwa [Run.length_oldPart hi] at hle
  -- What is left of the kept run starts behind the pairs that are passed.
  have hkept :
      ∀ k < length' - count, a[old' + count + k]? = b[new + count + length + k]? := by
    intro k hk
    have h := hpairs (count + k) (by omega)
    rwa [show old' + (count + k) = old' + count + k by omega,
      show new + length + (count + k) = new + count + length + k by omega] at h
  exact ⟨⟨rfl, rfl, hpassed⟩, rfl, ⟨rfl, by omega, hkept⟩, by omega, by omega⟩

end Passing

/-! ### Moves -/

section Moves

variable {α : Type} {a b : List α}

/-- The script of a cursor. -/
def Cursor.script (c : Cursor) : List Run :=
  c.before.reverse ++ c.run :: c.after

/-- Whether a cursor can become another: with a run of the same kind, in a script that can be put in
the place of its own. -/
structure Cursor.MovesTo (a b : List α) (c c' : Cursor) : Prop where
  kind_eq : c'.run.kind = c.run.kind
  rewrites : Rewrites a b c.script c'.script

/-- A cursor can become whatever one can become that it can become in one step. -/
theorem Cursor.MovesTo.after {c c' c'' : Cursor} (h : c'.MovesTo a b c'')
    (hkind : c'.run.kind = c.run.kind) (hstep : Rewrites a b c.script c'.script) :
    c.MovesTo a b c'' :=
  ⟨h.kind_eq.trans hkind, hstep.trans h.rewrites⟩

variable {run previous next : Run} {count : Nat}

/-- Of the runs that move, only an insertion has elements to compare with kept ones. -/
theorem kind_eq_inserted (hrun : run.kind ≠ .kept) (hlength : 0 < (run.newPart b).length) :
    run.kind = .inserted := by
  cases hkind : run.kind with
  | kept => exact absurd hkind hrun
  | deleted =>
    rw [Run.newPart, Run.newLength, if_pos hkind, List.take_zero] at hlength
    exact absurd hlength (Nat.lt_irrefl 0)
  | inserted => rfl

variable [DecidableEq α]

/-- A run that has moved up over some kept elements, with those that it has not passed still in
front of it. -/
theorem rewrites_moveUp (hrun : run.kind ≠ .kept) (hkept : previous.kind = .kept)
    (hcount : commonBack (previous.oldPart a) (run.newPart b) = count) (h0 : count ≠ 0)
    (before after : List Run) :
    Rewrites a b (Cursor.script ⟨previous :: before, run, after⟩)
      (Cursor.script ⟨previous.dropBack count :: before, run.moveUp count,
        Run.keepInFront ⟨.kept, previous.old + previous.length - count,
          run.new + run.newLength - count, count⟩ after⟩) := by
  have hlength : 0 < (run.newPart b).length := by
    have hle := (commonBack_le (previous.oldPart a) (run.newPart b)).2
    omega
  have hpassed := (rewrites_up hkept (kind_eq_inserted hrun hlength) hcount).between
    before.reverse after
  have hjoined := (rewrites_keepInFront (a := a) (b := b)
    (r := ⟨.kept, previous.old + previous.length - count, run.new + run.newLength - count, count⟩)
    rfl after).between (before.reverse ++ [previous.dropBack count, run.moveUp count]) []
  simp only [Cursor.script, List.reverse_cons, List.append_assoc, List.cons_append,
    List.nil_append, List.append_nil] at hpassed hjoined ⊢
  exact hpassed.trans hjoined

/-- The run at a cursor can move up. -/
theorem Cursor.movesTo_moveUp (c : Cursor) (h : c.run.kind ≠ .kept) :
    c.MovesTo a b (c.moveUp a b) := by
  fun_induction Cursor.moveUp a b c with
  | case1 run after => exact ⟨rfl, .refl _⟩
  | case2 previous before run after hkept count hcount hlength ih =>
    refine (ih h).after rfl ?_
    simpa [Cursor.script] using (rewrites_nil hlength).between before.reverse (run :: after)
  | case3 previous before run after hkept count hcount hlength => exact ⟨rfl, .refl _⟩
  | case4 previous before run after hkept count hcount passed after' hlength ih =>
    -- All kept elements in front of the run are passed, so that an empty run would be left there.
    refine (ih h).after rfl ((rewrites_moveUp h hkept rfl hcount before after).trans ?_)
    have hempty : (previous.dropBack count).length = 0 := Nat.sub_eq_zero_of_le hlength
    simpa [Cursor.script] using
      (rewrites_nil hempty).between before.reverse (run.moveUp count :: after')
  | case5 previous before run after hkept count hcount passed after' hlength ih =>
    exact (ih h).after rfl (rewrites_moveUp h hkept rfl hcount before after)
  | case6 previous before run after hkept hkind ih =>
    refine (ih hkept).after hkind ?_
    simpa [Cursor.script] using (rewrites_extend hkind.symm).between before.reverse after
  | case7 previous before run after hkept hkind ih =>
    refine (ih h).after rfl ?_
    simpa [Cursor.script] using (rewrites_swap hkept h hkind).between before.reverse after

/-- A run that has moved down over some kept elements, with those that it has not passed still
behind it. -/
theorem rewrites_moveDown (hrun : run.kind ≠ .kept) (hkept : next.kind = .kept)
    (hcount : commonFront (next.oldPart a) (run.newPart b) = count) (h0 : count ≠ 0)
    (before after : List Run) :
    Rewrites a b (Cursor.script ⟨before, run, next :: after⟩)
      (Cursor.script ⟨Run.keepBehind ⟨.kept, next.old, run.new, count⟩ before,
        run.moveDown count, next.dropFront count :: after⟩) := by
  have hlength : 0 < (run.newPart b).length := by
    have hle := (commonFront_le (next.oldPart a) (run.newPart b)).2
    omega
  have hpassed := (rewrites_down (kind_eq_inserted hrun hlength) hkept hcount).between
    before.reverse after
  have hjoined := (rewrites_keepBehind (a := a) (b := b)
    (r := ⟨.kept, next.old, run.new, count⟩) rfl before).between []
    (run.moveDown count :: next.dropFront count :: after)
  simp only [Cursor.script, List.append_assoc, List.cons_append, List.nil_append]
    at hpassed hjoined ⊢
  exact hpassed.trans hjoined

/-- The run at a cursor can move down. -/
theorem Cursor.movesTo_moveDown (c : Cursor) (h : c.run.kind ≠ .kept) :
    c.MovesTo a b (c.moveDown a b) := by
  -- Each turn rewrites the runs around the cursor: an empty run goes, a kept one is passed, one of
  -- the same kind is joined, and one of the other kind changes places.
  fun_induction Cursor.moveDown a b c with
  | case1 before run => exact ⟨rfl, .refl _⟩
  | case2 before run next after hkept count hcount hlength ih =>
    refine (ih h).after rfl ?_
    simpa [Cursor.script] using (rewrites_nil hlength).between (before.reverse ++ [run]) after
  | case3 before run next after hkept count hcount hlength => exact ⟨rfl, .refl _⟩
  | case4 before run next after hkept count hcount before' hlength ih =>
    refine (ih h).after rfl ((rewrites_moveDown h hkept rfl hcount before after).trans ?_)
    have hempty : (next.dropFront count).length = 0 := Nat.sub_eq_zero_of_le hlength
    simpa [Cursor.script] using
      (rewrites_nil hempty).between (before'.reverse ++ [run.moveDown count]) after
  | case5 before run next after hkept count hcount before' hlength ih =>
    exact (ih h).after rfl (rewrites_moveDown h hkept rfl hcount before after)
  | case6 before run next after hkept hkind ih =>
    refine (ih h).after rfl ?_
    simpa [Cursor.script] using (rewrites_extend hkind).between before.reverse after
  | case7 before run next after hkept hkind ih =>
    refine (ih h).after rfl ?_
    simpa [Cursor.script] using
      (rewrites_swap h hkept (Ne.symm hkind)).between before.reverse after

/-! ### All moves -/

/-- The run at a cursor can move up, and then down. -/
theorem Cursor.movesTo_moved (c : Cursor) (h : c.run.kind ≠ .kept) :
    c.MovesTo a b (.moveDown a b (.moveUp a b c)) := by
  have hup : c.MovesTo a b (.moveUp a b c) := c.movesTo_moveUp h
  have hdown := Cursor.movesTo_moveDown (a := a) (b := b) (.moveUp a b c) (hup.kind_eq ▸ h)
  exact hdown.after hup.kind_eq hup.rewrites

theorem rewrites_settleFrom {kind : RunKind} (hkind : kind ≠ .kept) (turns : Nat)
    (before after : List Run) :
    Rewrites a b (before.reverse ++ after) (settleFrom a b kind turns before after) := by
  -- Runs before the cursor are settled. Each turn moves the cursor over one more.
  induction turns generalizing before after with
  | zero => exact .refl _
  | succ turns ih =>
    cases after with
    | nil =>
      rw [List.append_nil]
      exact .refl _
    | cons run after =>
      rw [settleFrom]
      split
      case isTrue hrun =>
        have hmoved : Rewrites a b (before.reverse ++ run :: after) _ :=
          (Cursor.movesTo_moved ⟨before, run, after⟩ (by rwa [hrun])).rewrites
        generalize Cursor.moveDown a b (.moveUp a b ⟨before, run, after⟩) = moved at hmoved ⊢
        have hrest := ih (moved.run :: moved.before) moved.after
        rw [List.reverse_cons, List.append_assoc] at hrest
        exact hmoved.trans hrest
      case isFalse =>
        have hrest := ih (run :: before) after
        rwa [List.reverse_cons, List.append_assoc] at hrest

theorem rewrites_settle (kind : RunKind) (hkind : kind ≠ .kept) (script : List Run) :
    Rewrites a b script (settle a b kind script) :=
  rewrites_settleFrom hkind _ [] script

/-- The script between two lists leads from their front to their back. -/
theorem leads_editScript (a b : List α) : Leads a b (editScript a b) 0 0 a.length b.length := by
  -- The first script is made for the lists themselves, and every move keeps where it leads.
  have hbetween := leads_runsBetween (standsAt_self a) (standsAt_self b)
  rw [Nat.zero_add, Nat.zero_add] at hbetween
  have hsettled : Rewrites a b (runsBetween 0 0 a b) (editScript a b) :=
    (rewrites_settle .deleted nofun _).trans (rewrites_settle .inserted nofun _)
  exact hsettled (Nat.le_refl _) (Nat.le_refl _) hbetween

end Moves

end SyntaxEdit
