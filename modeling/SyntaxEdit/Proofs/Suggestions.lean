/-
The suggestions for a path that was not found.

Candidates are ranked by their score, and those with one score by their text.  No two different
texts stand on one rank, so there is only one way to rank some candidates, in whatever order they
come and however often each of them comes.

* `RanksAbove` — the rank of two texts under a score;
* `ranked`, `closest_eq_take` — the suggestions are the first three of the ranked candidates;
* `mem_ranked_iff`, `pairwise_ranked` — all candidates above the threshold are ranked, each once;
* `eq_of_pairwise_ranksAbove` — some texts can be ranked in one way only;
* `SyntaxTree.suggestBy_best` — so the suggestions follow from the set of the candidates.
-/
import Mathlib.Order.Lattice
import SyntaxEdit.Construct.Suggestion
import SyntaxEdit.Proofs.ListedPaths

namespace SyntaxEdit

variable {α : Type} [LinearOrder α] {score : Text → α} {threshold : α}

/-! ### Ranks -/

/-- Whether a text ranks above another one: it scores higher, or the same and comes first as a
text. -/
def RanksAbove (score : Text → α) (p q : Text) : Prop :=
  score q < score p ∨ score p = score q ∧ Text.precedes p q = true ∧ p ≠ q

theorem RanksAbove.asymm {p q : Text} (h : RanksAbove score p q) : ¬RanksAbove score q p := by
  rintro (hlt' | ⟨heq', hprecedes', hne⟩)
  · rcases h with hlt | ⟨heq, -⟩
    · exact lt_asymm hlt hlt'
    · exact hlt'.ne heq
  · rcases h with hlt | ⟨-, hprecedes, -⟩
    · exact hlt.ne heq'
    · exact hne (Text.precedes_antisymm hprecedes' hprecedes)

theorem RanksAbove.ne {p q : Text} (h : RanksAbove score p q) : p ≠ q := by
  rintro rfl
  exact h.asymm h

/-- Some texts can be ranked in one way only. -/
theorem eq_of_pairwise_ranksAbove {texts texts' : List Text}
    (h : texts.Pairwise (RanksAbove score)) (h' : texts'.Pairwise (RanksAbove score))
    (hmem : ∀ p, p ∈ texts ↔ p ∈ texts') : texts = texts' :=
  List.Perm.eq_of_pairwise (fun _ _ _ _ habove hbelow => absurd hbelow habove.asymm) h h'
    ((List.perm_ext_iff_of_nodup (h.imp RanksAbove.ne) (h'.imp RanksAbove.ne)).2 hmem)

/-! ### The order of scored candidates -/

theorem ranksBefore_iff {a b : α × Text} :
    ranksBefore a b = true ↔ b.1 < a.1 ∨ a.1 = b.1 ∧ Text.precedes a.2 b.2 = true := by
  simp only [ranksBefore, Bool.or_eq_true, Bool.and_eq_true, Bool.not_eq_true', decide_eq_true_eq,
    decide_eq_false_iff_not]
  constructor
  · rintro (hlt | ⟨hnot, hprecedes⟩)
    · exact .inl hlt
    · rcases lt_or_eq_of_le (not_lt.1 hnot) with hlt | heq
      · exact .inl hlt
      · exact .inr ⟨heq.symm, hprecedes⟩
  · rintro (hlt | ⟨heq, hprecedes⟩)
    · exact .inl hlt
    · exact .inr ⟨heq.not_lt, hprecedes⟩

theorem ranksBefore_total (a b : α × Text) : (ranksBefore a b || ranksBefore b a) = true := by
  rw [Bool.or_eq_true, ranksBefore_iff, ranksBefore_iff]
  rcases lt_trichotomy a.1 b.1 with hlt | heq | hlt
  · exact .inr (.inl hlt)
  · exact (Text.precedes_total a.2 b.2).imp (fun h => .inr ⟨heq, h⟩) fun h => .inr ⟨heq.symm, h⟩
  · exact .inl (.inl hlt)

theorem ranksBefore_trans {a b c : α × Text} (hab : ranksBefore a b = true)
    (hbc : ranksBefore b c = true) : ranksBefore a c = true := by
  rw [ranksBefore_iff] at hab hbc ⊢
  rcases hab with hab | ⟨hab, hfirst⟩
  · rcases hbc with hbc | ⟨hbc, -⟩
    · exact .inl (hbc.trans hab)
    · exact .inl (hbc ▸ hab)
  · rcases hbc with hbc | ⟨hbc, hsecond⟩
    · exact .inl (hab ▸ hbc)
    · exact .inr ⟨hab.trans hbc, Text.precedes_trans hfirst hsecond⟩

/-! ### Ranked candidates -/

/-- The distinct candidates above the threshold, with their scores. -/
def scored (score : Text → α) (threshold : α) (candidates : List Text) : List (α × Text) :=
  ((firstOfEach id candidates).map fun candidate => (score candidate, candidate)).filter
    fun entry => threshold < entry.1

theorem mem_scored_iff {candidates : List Text} {entry : α × Text} :
    entry ∈ scored score threshold candidates ↔
      entry.2 ∈ candidates ∧ score entry.2 = entry.1 ∧ threshold < entry.1 := by
  have hdistinct : entry.2 ∈ firstOfEach id candidates ↔ entry.2 ∈ candidates := by
    refine ⟨mem_firstOfEach, fun h => ?_⟩
    obtain ⟨q, hq, heq⟩ : ∃ q ∈ firstOfEach id candidates, q = entry.2 := exists_mem_firstOfEach h
    exact heq ▸ hq
  rw [scored, List.mem_filter, List.mem_map, decide_eq_true_eq, ← hdistinct, ← and_assoc]
  refine and_congr_left' ⟨?_, fun ⟨hentry, hscore⟩ => ⟨entry.2, hentry, Prod.ext hscore rfl⟩⟩
  rintro ⟨candidate, hcandidate, rfl⟩
  exact ⟨hcandidate, rfl⟩

/-- Each candidate has one score. -/
theorem nodup_scored (score : Text → α) (threshold : α) (candidates : List Text) :
    ((scored score threshold candidates).map Prod.snd).Nodup := by
  have hdistinct : (((firstOfEach id candidates).map fun candidate =>
      (score candidate, candidate)).map Prod.snd).Nodup := by
    simpa [Function.comp_def] using nodup_map_firstOfEach id candidates
  exact hdistinct.sublist (List.filter_sublist.map Prod.snd)

/-- The distinct candidates above the threshold, ranked. -/
def ranked (score : Text → α) (threshold : α) (candidates : List Text) : List Text :=
  ((scored score threshold candidates).mergeSort ranksBefore).map Prod.snd

theorem closest_eq_take (score : Text → α) (threshold : α) (candidates : List Text) :
    closest score threshold candidates = (ranked score threshold candidates).take 3 := by
  rw [closest, ranked, List.map_take, scored]

theorem mem_ranked_iff {candidates : List Text} {p : Text} :
    p ∈ ranked score threshold candidates ↔ p ∈ candidates ∧ threshold < score p := by
  simp only [ranked, List.mem_map, List.mem_mergeSort, mem_scored_iff]
  constructor
  · rintro ⟨entry, ⟨hentry, hscore, hthreshold⟩, rfl⟩
    exact ⟨hentry, hscore ▸ hthreshold⟩
  · rintro ⟨hp, hthreshold⟩
    exact ⟨(score p, p), ⟨hp, rfl, hthreshold⟩, rfl⟩

/-- No candidate is ranked twice, and each ranks above those behind it. -/
theorem pairwise_ranked (score : Text → α) (threshold : α) (candidates : List Text) :
    (ranked score threshold candidates).Pairwise (RanksAbove score) := by
  have hsorted : ((scored score threshold candidates).mergeSort ranksBefore).Pairwise
      fun a b => ranksBefore a b = true := by
    refine List.pairwise_mergeSort (fun a b c hab hbc => ?_) (fun a b => ?_) _
    · exact ranksBefore_trans hab hbc
    · exact ranksBefore_total a b
  have hnodup : (((scored score threshold candidates).mergeSort ranksBefore).map Prod.snd).Nodup :=
    ((List.mergeSort_perm _ ranksBefore).map Prod.snd).nodup_iff.2 (nodup_scored _ _ _)
  rw [List.Nodup, List.pairwise_map] at hnodup
  rw [ranked, List.pairwise_map]
  refine (hsorted.and hnodup).imp_of_mem fun {a b} ha hb ⟨hbefore, hne⟩ => ?_
  obtain ⟨-, hscore, -⟩ := mem_scored_iff.1 (List.mem_mergeSort.1 ha)
  obtain ⟨-, hscore', -⟩ := mem_scored_iff.1 (List.mem_mergeSort.1 hb)
  rw [RanksAbove, hscore, hscore']
  exact (ranksBefore_iff.1 hbefore).imp_right fun ⟨hsame, hprecedes⟩ => ⟨hsame, hprecedes, hne⟩

/-! ### The best candidates -/

/-- What is left out of the front of a ranked list ranks below what is taken. -/
theorem ranksAbove_of_notMem_take {texts : List Text} (h : texts.Pairwise (RanksAbove score))
    {count : Nat} {p q : Text} (hp : p ∈ texts) (hleft : p ∉ texts.take count)
    (hq : q ∈ texts.take count) : RanksAbove score q p := by
  rw [← List.take_append_drop count texts] at h hp
  exact (List.pairwise_append.1 h).2.2 q hq p ((List.mem_append.1 hp).resolve_left hleft)

/-- **The suggestions follow from the set of the candidates.**  Whatever the score, they are the
first three of the listed paths that score above the threshold, ranked by score and then by text,
and any other list of the same candidates leads to the same suggestions.  So none of them comes
twice, all are listed, and no candidate that is left out ranks above one that is suggested. -/
theorem SyntaxTree.suggestBy_best (score : Text → Text → α) (threshold : α) (t : SyntaxTree)
    (path : Text) :
    ∃ best : List Text,
      (∀ p, p ∈ best ↔ p ∈ t.semanticPaths ∧ threshold < score path p) ∧
      best.Pairwise (RanksAbove (score path)) ∧
      t.suggestBy score threshold path = best.take 3 ∧
      (∀ candidates, (∀ p, p ∈ candidates ↔ p ∈ t.semanticPaths) →
        closest (score path) threshold candidates = t.suggestBy score threshold path) ∧
      (t.suggestBy score threshold path).Nodup ∧
      (∀ p ∈ t.suggestBy score threshold path, p ∈ t.semanticPaths ∧ threshold < score path p) ∧
      ∀ p ∈ t.semanticPaths, threshold < score path p →
        p ∉ t.suggestBy score threshold path →
        ∀ q ∈ t.suggestBy score threshold path, RanksAbove (score path) q p := by
  have hbest := pairwise_ranked (score path) threshold t.semanticPaths
  have htake : t.suggestBy score threshold path =
      (ranked (score path) threshold t.semanticPaths).take 3 := closest_eq_take _ _ _
  rw [htake]
  refine ⟨_, fun p => mem_ranked_iff, hbest, rfl, fun candidates hsame => ?_,
    (hbest.imp RanksAbove.ne).sublist (List.take_sublist 3 _),
    fun p hp => mem_ranked_iff.1 (List.mem_of_mem_take hp), fun p hp hscore hleft q hq =>
      ranksAbove_of_notMem_take hbest (mem_ranked_iff.2 ⟨hp, hscore⟩) hleft hq⟩
  rw [closest_eq_take]
  refine congrArg (List.take 3) (eq_of_pairwise_ranksAbove (pairwise_ranked _ _ _) hbest ?_)
  intro p
  rw [mem_ranked_iff, mem_ranked_iff, hsame]

/-- The tree of a class with a property and a function. -/
def SyntaxTree.ofClassWithMembers : SyntaxTree where
  root :=
    let token (type : String) (start stop : Nat) : Node :=
      .mk ⟨type, false, false, false, false, start, stop, none⟩ []
    let node (type : String) (start stop : Nat) (children : List Node) : Node :=
      .mk ⟨type, true, false, false, false, start, stop, none⟩ children
    let property := node "property_declaration" 12 21
      [node "binding_pattern_kind" 12 15 [token "val" 12 15],
        node "variable_declaration" 16 17 [node "simple_identifier" 16 17 []],
        token "=" 18 19, node "integer_literal" 20 21 []]
    node "source_file" 0 37
      [node "class_declaration" 0 36
        [token "class" 0 5, node "type_identifier" 6 7 [],
          node "class_body" 8 36
            [token "\x7b" 8 9, property, functionNode 24 1, token "\x7d" 35 36]]]
  broken := false
  source := "class B \x7b\n  val c = 1\n  fun a() \x7b\x7d\n\x7d\n".toList
  pack := (functionPack.withQuery .classes
    "(class_declaration (type_identifier) @name) @class".toList).withQuery .properties
    "(property_declaration (variable_declaration (simple_identifier) @name)) @property".toList

/-- Both members score the same, so they are suggested by their text; the class itself scores too
low. -/
theorem SyntaxTree.suggestBy_best_classWithMembers :
    ofClassWithMembers.semanticPaths.Perm ["B".toList, "B.a".toList, "B.c".toList] ∧
      ofClassWithMembers.suggestBy (commonStart 4) 1 "B.x".toList =
        ["B.a".toList, "B.c".toList] := by
  have hlisted : ofClassWithMembers.semanticPaths.Perm
      ["B".toList, "B.a".toList, "B.c".toList] := by
    refine ((List.mergeSort_perm _ _).map _).trans (.of_eq ?_)
    decide +kernel
  obtain ⟨best, hbest, hranked, htake, -⟩ :=
    suggestBy_best (commonStart 4) 1 ofClassWithMembers "B.x".toList
  have hmembers : best = ["B.a".toList, "B.c".toList] := by
    refine eq_of_pairwise_ranksAbove hranked ?_ fun p => ?_
    · exact List.pairwise_pair.2 (.inr ⟨by decide, by decide, by decide⟩)
    · rw [hbest, hlisted.mem_iff]
      constructor
      · rintro ⟨hp, hscore⟩
        rcases List.mem_cons.1 hp with rfl | hp
        · exact absurd hscore (by decide)
        · exact hp
      · intro hp
        have hscores : ∀ p ∈ ["B.a".toList, "B.c".toList], 1 < commonStart 4 "B.x".toList p := by
          decide
        exact ⟨List.mem_cons_of_mem _ hp, hscores p hp⟩
  rw [htake, hmembers]
  exact ⟨hlisted, rfl⟩

end SyntaxEdit
