/-
The three signs of a change agree.

A text has changed if it is not the first one, if there is a hunk, or if the diff is not empty.  The
first compares whole texts, the others compare lines.  But the lines of a text make up the text, so
that texts with the same lines are equal, down to their line breaks; and a script that only keeps
lines leads between equal lists.

* `IsScriptFrom`, `DiffEngine.IsSound` — what is relied on of an engine: its blocks follow each
  other and cover both lists, kept blocks pair equal lines, and there is a group if and only if some
  block is changed;
* `eq_of_kept` — blocks that are all kept stand between equal lists;
* `isScriptFrom_blocksOf`, `groupBlocks_eq_nil_iff`, `isSound_lineDiff` — the engine in use is one
  of these;
* `changeIndicators_agree` — with any of them, the signs agree at every text that edits lead to.
-/
import Mathlib.Data.List.Chain
import SyntaxEdit.Proofs.EditHistory
import SyntaxEdit.Proofs.EditScripts

namespace SyntaxEdit

/-! ### Scripts of blocks -/

section Blocks

variable {old new : List Text} {d d' : DiffBlock} {blocks : List DiffBlock} {i j : Nat}

/-- Whether a block stands at line `i` of one list and line `j` of another, and pairs equal lines if
it is kept. Where a block has no lines of a list, its position there says nothing. -/
structure DiffBlock.FitsAt (old new : List Text) (d : DiffBlock) (i j : Nat) : Prop where
  old_eq : d.oldLength ≠ 0 → d.old = i
  new_eq : d.newLength ≠ 0 → d.new = j
  length_eq : d.kept = true → d.oldLength = d.newLength
  pairs : d.kept = true → ∀ k < d.oldLength, old[i + k]? = new[j + k]?

/-- Whether blocks lead from line `i` of one list and line `j` of another to the ends of both, each
from where the one before it stops. -/
def IsScriptFrom (old new : List Text) (i j : Nat) : List DiffBlock → Prop
  | [] => i = old.length ∧ j = new.length
  | d :: rest =>
    d.FitsAt old new i j ∧ IsScriptFrom old new (i + d.oldLength) (j + d.newLength) rest

/-- What kept blocks stand between is equal. -/
theorem drop_eq_of_kept (h : IsScriptFrom old new i j blocks)
    (hkept : ∀ d ∈ blocks, d.kept = true) : old.drop i = new.drop j := by
  induction blocks generalizing i j with
  | nil => rw [h.1, h.2, List.drop_length, List.drop_length]
  | cons d rest ih =>
    obtain ⟨hfits, hrest⟩ := h
    have hd : d.kept = true := hkept d List.mem_cons_self
    have hlater := ih hrest fun d' hd' => hkept d' (List.mem_cons_of_mem d hd')
    rw [← hfits.length_eq hd] at hlater
    refine List.ext_getElem? fun k => ?_
    rw [List.getElem?_drop, List.getElem?_drop]
    -- The pairs of the first block tell of its own lines, the later blocks of those behind it.
    rcases Nat.lt_or_ge k d.oldLength with hlt | hge
    · exact hfits.pairs hd k hlt
    · have hk := congrArg (·[k - d.oldLength]?) hlater
      simp only [List.getElem?_drop, Nat.add_assoc, Nat.add_sub_cancel' hge] at hk
      exact hk

/-- **Blocks that are all kept stand between equal lists.** -/
theorem eq_of_kept (h : IsScriptFrom old new 0 0 blocks) (hkept : ∀ d ∈ blocks, d.kept = true) :
    old = new :=
  drop_eq_of_kept h hkept

end Blocks

/-! ### Engines that can be relied on -/

/-- What is relied on of an engine: it finds a script, and makes a group of blocks of it if and only
if some block is changed. -/
structure DiffEngine.IsSound (engine : DiffEngine) : Prop where
  isScript : ∀ old new, IsScriptFrom old new 0 0 (engine.script old new)
  group_eq_nil_iff : ∀ old new,
    engine.groups old new = [] ↔ ∀ d ∈ engine.script old new, d.kept = true

section Blocks

variable {old new : List Text} {r : Run} {runs : List Run} {d : DiffBlock} {i j : Nat}

theorem Run.FitsAt.block (h : r.FitsAt old new i j) : r.block.FitsAt old new i j := by
  obtain ⟨kind, x, y, length⟩ := r
  cases kind with
  | kept => exact ⟨fun _ => h.1, fun _ => h.2.1, fun _ => rfl, fun _ => h.2.2⟩
  | deleted => exact ⟨fun _ => h, absurd rfl, nofun, nofun⟩
  | inserted => exact ⟨absurd rfl, fun _ => h, nofun, nofun⟩

theorem Run.FitsAt.joinBlock (h : r.FitsAt old new i j)
    (hd : d.FitsAt old new (i + r.oldLength) (j + r.newLength)) (hkept : d.kept = r.block.kept) :
    (r.joinBlock d).FitsAt old new i j := by
  obtain ⟨kind, x, y, length⟩ := r
  cases kind with
  | kept =>
    obtain ⟨hx, hy, hpairs⟩ := h
    have hlength := hd.length_eq hkept
    exact ⟨fun _ => hx, fun _ => hy, fun _ => congrArg (length + ·) hlength,
      fun _ => pairs_append hpairs (hd.pairs hkept)⟩
  | deleted =>
    -- A changed block has no pairs, so only its positions are to be checked.
    have hchanged : d.kept ≠ true := fun h => Bool.false_ne_true (hkept.symm.trans h)
    refine ⟨fun _ => h, fun hnew => ?_, fun h => absurd h hchanged, fun h => absurd h hchanged⟩
    have hnew' : d.newLength ≠ 0 := by
      simpa [Run.joinBlock, Run.newLength] using hnew
    simpa [Run.joinBlock, hnew', Run.newLength] using hd.new_eq hnew'
  | inserted =>
    have hchanged : d.kept ≠ true := fun h => Bool.false_ne_true (hkept.symm.trans h)
    refine ⟨fun hold => ?_, fun _ => h, fun h => absurd h hchanged, fun h => absurd h hchanged⟩
    have hold' : d.oldLength ≠ 0 := by
      simpa [Run.joinBlock, Run.oldLength] using hold
    simpa [Run.joinBlock, hold', Run.oldLength] using hd.old_eq hold'

/-- Runs that lead to the ends of both lists do so as blocks. -/
theorem isScriptFrom_blocksOf (h : Leads old new runs i j old.length new.length) :
    IsScriptFrom old new i j (blocksOf runs) := by
  induction runs generalizing i j with
  | nil => exact h
  | cons r rest ih =>
    obtain ⟨hfits, hrest⟩ := h
    have hblocks := ih hrest
    -- The first run starts a block of its own, or is joined to the first of the later blocks.
    rw [blocksOf]
    split
    case h_1 hnil =>
      rw [hnil] at hblocks
      exact ⟨hfits.block, hblocks⟩
    case h_2 d blocks hcons =>
      rw [hcons] at hblocks
      split
      case isTrue hkept =>
        refine ⟨hfits.joinBlock hblocks.1 hkept, ?_⟩
        have hlater := hblocks.2
        rwa [Nat.add_assoc, Nat.add_assoc] at hlater
      case isFalse => exact ⟨hfits.block, hblocks⟩

/-- No two blocks that follow each other are of one sort. -/
theorem isChain_blocksOf (runs : List Run) :
    (blocksOf runs).IsChain fun d d' => d.kept ≠ d'.kept := by
  induction runs with
  | nil => exact .nil
  | cons r rest ih =>
    rw [blocksOf]
    split
    case h_1 => exact .singleton _
    case h_2 d blocks hcons =>
      rw [hcons] at ih
      split
      case isTrue =>
        -- A joined block keeps its sort, and so differs from the next one as before.
        rw [List.isChain_cons] at ih ⊢
        exact ih
      case isFalse hkept => exact List.isChain_cons_cons.2 ⟨Ne.symm hkept, ih⟩

/-- Of such blocks, all are kept only if there is no more than one. -/
theorem forall_kept_iff {blocks : List DiffBlock}
    (h : blocks.IsChain fun d d' => d.kept ≠ d'.kept) :
    (∀ d ∈ blocks, d.kept = true) ↔ blocks = [] ∨ ∃ d, blocks = [d] ∧ d.kept = true := by
  constructor
  · intro hkept
    match blocks, h, hkept with
    | [], _, _ => exact .inl rfl
    | [d], _, hkept => exact .inr ⟨d, rfl, hkept d List.mem_cons_self⟩
    | d :: d' :: rest, h, hkept =>
      -- Neighbours differ in this, so two of them cannot both be kept.
      have hne : d.kept ≠ d'.kept := (List.isChain_cons_cons.1 h).1
      rw [hkept d List.mem_cons_self, hkept d' (List.mem_cons_of_mem d List.mem_cons_self)] at hne
      exact absurd rfl hne
  · rintro (rfl | ⟨d, rfl, hkept⟩)
    · exact nofun
    · simpa using hkept

/-! ### Groups of blocks -/

/-- There is no group only if a lone kept block is left that is not long. -/
theorem groupFrom_eq_nil_iff {group blocks : List DiffBlock} :
    groupFrom group blocks = [] ↔
      (∀ d ∈ blocks, ¬(d.kept = true ∧ 2 * contextLines < d.oldLength)) ∧
        (group ++ blocks = [] ∨ ∃ d, group ++ blocks = [d] ∧ d.kept = true) := by
  -- The group is what came before, so it grows from step to step.
  induction blocks generalizing group with
  | nil =>
    rw [groupFrom.eq_def]
    match group with
    | [] => simp
    | [d] => by_cases hd : d.kept = true <;> simp [hd]
    | d :: d' :: rest => simp
  | cons d rest ih =>
    rw [groupFrom]
    split
    case isTrue hlong => simp [hlong]
    case isFalse hshort =>
      rw [ih, List.append_assoc, List.singleton_append, List.forall_mem_cons,
        and_iff_right hshort]

/-- Trimming leaves out lines, but no block. -/
theorem length_trimBlocks (blocks : List DiffBlock) :
    (trimBlocks blocks).length = blocks.length := by
  unfold trimBlocks
  extract_lets front
  -- Trimming replaces the first and the last block and takes none away.
  have hfront : front.length = blocks.length := by
    simp only [front]
    split
    · split <;> rfl
    · rfl
  split
  case h_1 d hlast =>
    have hne : front.length ≠ 0 := by
      rw [Ne, List.length_eq_zero_iff]
      intro hnil
      rw [hnil] at hlast
      nomatch hlast
    split
    · rw [List.length_append, List.length_dropLast, List.length_singleton]
      omega
    · exact hfront
  case h_2 hnone =>
    rw [List.getLast?_eq_none_iff.1 hnone] at hfront
    exact hfront

theorem trimBlocks_singleton (d : DiffBlock) :
    trimBlocks [d] =
      [if d.kept then (d.last contextLines).first contextLines else d] := by
  cases hkept : d.kept with
  | true => simp [trimBlocks, hkept, DiffBlock.last]
  | false => simp [trimBlocks, hkept]

/-- There is no group only for a single kept block, or for none. -/
theorem groupBlocks_eq_nil_iff {blocks : List DiffBlock} :
    groupBlocks blocks = [] ↔ blocks = [] ∨ ∃ d, blocks = [d] ∧ d.kept = true := by
  rw [groupBlocks, groupFrom_eq_nil_iff, List.nil_append]
  constructor
  · rintro ⟨-, hnil | ⟨d, hd, hkept⟩⟩
    · refine .inl (List.length_eq_zero_iff.1 ?_)
      rw [← length_trimBlocks, hnil, List.length_nil]
    · have hlength : blocks.length = 1 := by
        rw [← length_trimBlocks, hd, List.length_singleton]
      obtain ⟨d', rfl⟩ := List.length_eq_one_iff.1 hlength
      refine .inr ⟨d', rfl, ?_⟩
      -- A changed block is not trimmed, so it would still be changed.
      by_contra hchanged
      rw [trimBlocks_singleton, if_neg hchanged, List.singleton_inj] at hd
      exact hchanged (hd ▸ hkept)
  · rintro (rfl | ⟨d, rfl, hkept⟩)
    · exact ⟨nofun, .inl rfl⟩
    · rw [trimBlocks_singleton, if_pos hkept]
      refine ⟨?_, .inr ⟨_, rfl, hkept⟩⟩
      -- Of the one kept block no more is left than the context at its two ends.
      rintro d' hd' ⟨-, hlong⟩
      rw [List.mem_singleton.1 hd'] at hlong
      simp only [DiffBlock.first, contextLines] at hlong
      omega

end Blocks

/-- **The engine in use can be relied on.** -/
theorem isSound_lineDiff : lineDiff.IsSound where
  isScript _ _ := isScriptFrom_blocksOf (leads_editScript _ _)
  group_eq_nil_iff _ _ :=
    groupBlocks_eq_nil_iff.trans (forall_kept_iff (isChain_blocksOf _)).symm

/-! ### The signs of a change -/

section Signs

variable {engine : DiffEngine} {old new : Text}

/-- Texts with the same lines are equal, also in how their lines end. -/
theorem eq_of_brokenLines_eq (h : Text.brokenLines old = Text.brokenLines new) : old = new := by
  rw [← Text.flatten_brokenLines old, h, Text.flatten_brokenLines]

/-- Between texts without groups of changes there is no change. -/
theorem eq_of_groups_eq_nil (h : engine.IsSound)
    (hnil : engine.groups (Text.brokenLines old) (Text.brokenLines new) = []) : old = new :=
  eq_of_brokenLines_eq (eq_of_kept (h.isScript _ _) ((h.group_eq_nil_iff _ _).1 hnil))

theorem hunkCount_eq_zero_iff (h : engine.IsSound) :
    hunkCount old new engine = 0 ↔ old = new := by
  rw [hunkCount]
  split
  case isTrue hsame => exact iff_of_true rfl hsame
  case isFalse hne =>
    rw [List.length_eq_zero_iff]
    exact iff_of_false (fun hnil => hne (eq_of_groups_eq_nil h hnil)) hne

theorem diffHeader_ne_nil (label : Text) : diffHeader label ≠ [] :=
  List.append_ne_nil_of_right_ne_nil _ (List.cons_ne_nil _ _)

theorem unifiedDiff_eq_nil_iff (h : engine.IsSound) {label : Text} :
    unifiedDiff old new label engine = [] ↔ old = new := by
  rw [unifiedDiff]
  split
  case isTrue hsame => exact iff_of_true rfl hsame
  case isFalse hne =>
    refine iff_of_false (fun hnil => hne ?_) hne
    split at hnil
    case h_1 hhunks => exact eq_of_groups_eq_nil h (List.map_eq_nil_iff.1 hhunks)
    -- A diff with hunks starts with the names of the files.
    case h_2 =>
      obtain ⟨hheader, -⟩ := List.append_eq_nil_iff.1 hnil
      exact absurd hheader (diffHeader_ne_nil label)

end Signs

namespace Editor

/-- Edits keep the first text. -/
theorem firstText_run (parser : Parser) (e : Editor) (changes : List Edit) :
    (e.run parser changes).firstText = e.firstText := by
  induction changes generalizing e with
  | nil => rfl
  | cons change rest ih =>
    refine (ih (e.editOrStay parser change)).trans ?_
    rw [editOrStay]
    split
    case h_1 next hnext =>
      obtain ⟨t, -, rfl⟩ := edit_eq_ok_iff.1 hnext
      rfl
    case h_2 => rfl

end Editor

/-- **The three signs of a change agree**, between any two texts and after any edits: there is no
diff if and only if there is no hunk, if and only if the texts are equal. -/
theorem changeIndicators_agree {engine : DiffEngine} (h : engine.IsSound) :
    (∀ old new label : Text,
      (unifiedDiff old new label engine = [] ↔ hunkCount old new engine = 0) ∧
        (hunkCount old new engine = 0 ↔ old = new)) ∧
      ∀ (parser : Parser) (e : Editor) (changes : List Edit) (label : Text),
        let last := e.run parser changes
        (last.diff label engine = [] ↔ last.hunks engine = 0) ∧
          (last.hunks engine = 0 ↔ last.isModified = false) ∧
          (last.isModified = false ↔ last.text = e.firstText) := by
  refine ⟨fun old new label => ⟨?_, hunkCount_eq_zero_iff h⟩,
    fun parser e changes label => ⟨?_, ?_, ?_⟩⟩
  · rw [unifiedDiff_eq_nil_iff h, hunkCount_eq_zero_iff h]
  · rw [Editor.diff, Editor.hunks, unifiedDiff_eq_nil_iff h, hunkCount_eq_zero_iff h]
  · rw [Editor.hunks, hunkCount_eq_zero_iff h, Editor.isModified_eq_false_iff, eq_comm]
  · rw [Editor.isModified_eq_false_iff, Editor.firstText_run]

/-- Texts that differ in their last line break alone, or in how their lines end, have a diff and a
hunk. -/
theorem changeIndicators_agree_lineBreaks :
    lineDiff.IsSound ∧
      hunkCount "a\n".toList "a".toList ≠ 0 ∧
      unifiedDiff "a\n".toList "a".toList "f".toList ≠ [] ∧
      hunkCount "a\r\nb\r".toList "a\nb\n".toList ≠ 0 ∧
      unifiedDiff "a\r\nb\r".toList "a\nb\n".toList "f".toList ≠ [] := by
  have hsigns := (changeIndicators_agree isSound_lineDiff).1
  have hfinal : hunkCount "a\n".toList "a".toList ≠ 0 :=
    (hsigns _ _ []).2.not.2 (by decide)
  have hbreaks : hunkCount "a\r\nb\r".toList "a\nb\n".toList ≠ 0 :=
    (hsigns _ _ []).2.not.2 (by decide)
  exact ⟨isSound_lineDiff, hfinal, (hsigns _ _ _).1.not.2 hfinal, hbreaks,
    (hsigns _ _ _).1.not.2 hbreaks⟩

end SyntaxEdit
