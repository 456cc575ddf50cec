/-
Pooled parsers make the trees that new ones would make.

A parser is set to a grammar when it is made, and several packs can share that grammar.  So a pooled
parser may have last served another pack than the one that it is asked for now, and what it makes is
right only because every call binds it anew.

* `ParserPool.run` — the trees of several calls, one after the other;
* `IsLeftBy` — what the calls so far leave in a pool: for each grammar that they used, a parser set
  to it, with the pack of the last of them;
* `IsLeftBy.parse`, `IsLeftBy.run` — a call makes the tree of a new parser and leaves the pool in
  that shape, and so do several;
* `run_makesFreshTrees` — the same for calls on an empty pool, with the number of pooled parsers.
-/
import Mathlib.Data.Finset.Card
import Mathlib.Data.List.Forall2
import SyntaxEdit.Tree.ParserPool

namespace SyntaxEdit

namespace ParserPool

variable {pool : ParserPool} {grammar other : Grammar} {p : BoundParser} {pack : LanguagePack}
  {history : List (LanguagePack × Text)}

/-! ### Look-up -/

/-- The grammars that there are parsers for. -/
def grammars (pool : ParserPool) : List Grammar :=
  pool.parsers.map Prod.fst

theorem find?_put (pool : ParserPool) (grammar other : Grammar) (p : BoundParser) :
    (pool.put grammar p).find? other = if grammar = other then some p else pool.find? other := by
  by_cases h : grammar = other
  · subst h
    simp [find?, put]
  · -- What is taken out of the list is not what is looked for.
    have hkept : ∀ entry : Grammar × BoundParser,
        (entry.1 ≠ grammar ∧ entry.1 = other) ↔ entry.1 = other := by
      intro entry
      constructor
      · exact And.right
      · intro hentry
        exact ⟨fun hsame => h (hsame.symm.trans hentry), hentry⟩
    rw [if_neg h, find?, put, List.find?_cons_of_neg (by simpa using h), List.find?_filter]
    simp only [decide_eq_true_eq, hkept]
    rfl

theorem mem_grammars_iff : grammar ∈ pool.grammars ↔ ∃ p, pool.find? grammar = some p := by
  rw [← Option.isSome_iff_exists, find?, Option.isSome_map, List.find?_isSome, grammars,
    List.mem_map]
  simp

theorem nodup_grammars_put (h : pool.grammars.Nodup) (grammar : Grammar) (p : BoundParser) :
    (pool.put grammar p).grammars.Nodup := by
  refine List.nodup_cons.2 ⟨?_, h.sublist (List.filter_sublist.map Prod.fst)⟩
  intro hmem
  obtain ⟨entry, hentry, hsame⟩ := List.mem_map.1 hmem
  have hdiffers := (List.mem_filter.1 hentry).2
  simp [hsame] at hdiffers

/-! ### One call -/

/-- Whether a pool is what some calls leave behind, the latest first: there is one parser for each
grammar that they used, and it has the pack of the latest call that did. -/
structure IsLeftBy (history : List (LanguagePack × Text)) (pool : ParserPool) : Prop where
  nodup : pool.grammars.Nodup
  find?_eq : ∀ grammar, pool.find? grammar =
    (history.find? fun call => call.1.grammar = grammar).map fun call =>
      ⟨grammar, call.1, .parsed⟩

theorem isLeftBy_empty : IsLeftBy [] empty :=
  ⟨List.nodup_nil, fun _ => rfl⟩

/-- The parser of a grammar is set to it, and so is the pack that it is bound to. -/
theorem IsLeftBy.grammar_eq (h : IsLeftBy history pool) (hp : pool.find? grammar = some p) :
    p.grammar = grammar ∧ p.pack.grammar = grammar := by
  rw [h.find?_eq] at hp
  obtain ⟨call, hcall, rfl⟩ := Option.map_eq_some_iff.1 hp
  exact ⟨rfl, by simpa using List.find?_some hcall⟩

/-- The parser that a call uses has the pack of the call, and its grammar too, whatever pack it was
last bound to. -/
theorem IsLeftBy.bind (h : IsLeftBy history pool) (pack : LanguagePack) :
    (pool.bind pack).1.grammar = pack.grammar ∧ (pool.bind pack).1.pack = pack := by
  simp only [ParserPool.bind]
  cases hfound : pool.find? pack.grammar with
  | none => exact ⟨rfl, rfl⟩
  | some p => exact ⟨(h.grammar_eq hfound).1, rfl⟩

/-- One call makes the tree of a new parser, and the pool keeps the parser for the calls to come. -/
theorem IsLeftBy.parse (h : IsLeftBy history pool) (parser : Parser) (queries : QueryLibrary)
    (pack : LanguagePack) (t : Text) :
    (pool.parse parser pack t queries).1 = ((BoundParser.new pack).parse parser t queries).1 ∧
      IsLeftBy ((pack, t) :: history) (pool.parse parser pack t queries).2 := by
  obtain ⟨hgrammar, hpack⟩ := h.bind pack
  constructor
  · show ((pool.bind pack).1.parse parser t queries).1 = _
    simp only [BoundParser.parse, BoundParser.new, hgrammar, hpack]
  · refine ⟨nodup_grammars_put (nodup_grammars_put h.nodup _ _) _ _, fun grammar => ?_⟩
    show (((pool.put pack.grammar (pool.bind pack).1).put pack.grammar
      ((pool.bind pack).1.parse parser t queries).2).find? grammar) = _
    rw [find?_put, find?_put, List.find?_cons]
    -- The parser of the pack has just been used; the others are as they were.
    by_cases hsame : pack.grammar = grammar
    · have hafter : ((pool.bind pack).1.parse parser t queries).2 =
          ⟨pack.grammar, pack, .parsed⟩ := by
        simp only [BoundParser.parse, hgrammar, hpack]
      simp [hsame, hafter]
    · simp [hsame, h.find?_eq]

/-! ### Several calls -/

/-- The trees of several calls by a pool, one after the other, and the pool after them. -/
def run (parser : Parser) (queries : QueryLibrary) (pool : ParserPool) :
    List (LanguagePack × Text) → List SyntaxTree × ParserPool
  | [] => ([], pool)
  | (pack, t) :: rest =>
    let (tree, pool) := pool.parse parser pack t queries
    let (trees, pool) := run parser queries pool rest
    (tree :: trees, pool)

theorem run_cons (parser : Parser) (queries : QueryLibrary) (pool : ParserPool)
    (pack : LanguagePack) (t : Text) (rest : List (LanguagePack × Text)) :
    pool.run parser queries ((pack, t) :: rest) =
      ((pool.parse parser pack t queries).1 ::
          ((pool.parse parser pack t queries).2.run parser queries rest).1,
        ((pool.parse parser pack t queries).2.run parser queries rest).2) := rfl

theorem IsLeftBy.run (h : IsLeftBy history pool) (parser : Parser) (queries : QueryLibrary)
    (calls : List (LanguagePack × Text)) :
    (pool.run parser queries calls).1 =
        calls.map (fun call => ((BoundParser.new call.1).parse parser call.2 queries).1) ∧
      IsLeftBy (calls.reverse ++ history) (pool.run parser queries calls).2 := by
  -- Each call leaves a pool with one more call behind it, which the next one starts from.
  induction calls generalizing pool history with
  | nil => exact ⟨rfl, h⟩
  | cons call rest ih =>
    obtain ⟨pack, t⟩ := call
    obtain ⟨htree, hnext⟩ := h.parse parser queries pack t
    obtain ⟨htrees, hlast⟩ := ih hnext
    rw [run_cons]
    constructor
    · rw [htree, htrees]
      rfl
    · rw [List.reverse_cons, List.append_assoc]
      exact hlast

/-- There are as many parsers in a pool as grammars were used. -/
theorem IsLeftBy.size_eq (h : IsLeftBy history pool) :
    pool.size = (history.map fun call => call.1.grammar).toFinset.card := by
  have hgrammars : pool.grammars.toFinset =
      (history.map fun call => call.1.grammar).toFinset := by
    ext grammar
    rw [List.mem_toFinset, List.mem_toFinset, mem_grammars_iff, ← Option.isSome_iff_exists,
      h.find?_eq, Option.isSome_map, List.find?_isSome, List.mem_map]
    simp
  rw [← hgrammars, List.toFinset_card_of_nodup h.nodup, grammars, List.length_map, size]

/-- Over a library that can be relied on to give trees, every call makes a tree of it. -/
theorem run_libraryTrees {library : GrammarLibrary} (h : library.GivesTrees)
    (queries : QueryLibrary) (calls : List (LanguagePack × Text)) :
    List.Forall₂ (fun (call : LanguagePack × Text) (tree : SyntaxTree) =>
        library call.1.grammar call.2 = some ⟨tree.root, tree.broken⟩)
      calls (empty.run (library.parser h) queries calls).1 := by
  rw [(isLeftBy_empty.run (library.parser h) queries calls).1, List.forall₂_map_right_iff]
  refine List.forall₂_same.2 fun call _ => ?_
  exact (Option.some_get (h.isSome call.1.grammar call.2)).symm

/-- **A pool of parsers cannot be told from new ones.**  Every call on a pool that started empty
makes the tree that a new parser for its pack would make: what the grammar of the pack gives for the
text, with the text and the pack.  The parser of a grammar is set to it and has a pack for it at all
times, so it may be bound to any other such pack, and there is one for each grammar that was
used. -/
theorem run_makesFreshTrees (parser : Parser) (queries : QueryLibrary)
    (calls : List (LanguagePack × Text)) :
    List.Forall₂ (fun (call : LanguagePack × Text) (tree : SyntaxTree) =>
        tree = ((BoundParser.new call.1).parse parser call.2 queries).1 ∧
          tree = .parse parser call.1 call.2 queries ∧
          ⟨tree.root, tree.broken⟩ = parser call.1.grammar call.2 ∧
          tree.source = call.2 ∧ tree.pack = call.1)
      calls (empty.run parser queries calls).1 ∧
    (∀ grammar p, (empty.run parser queries calls).2.find? grammar = some p →
      p.grammar = grammar ∧ p.pack.grammar = grammar) ∧
    (empty.run parser queries calls).2.size =
      (calls.map fun call => call.1.grammar).toFinset.card := by
  obtain ⟨htrees, hleft⟩ := isLeftBy_empty.run parser queries calls
  refine ⟨?_, fun grammar p hp => hleft.grammar_eq hp, ?_⟩
  · rw [htrees, List.forall₂_map_right_iff]
    exact List.forall₂_same.2 fun call _ => ⟨rfl, rfl, rfl, rfl, rfl⟩
  · rw [hleft.size_eq, List.append_nil, List.map_reverse, List.toFinset_reverse]

/-- A parser that makes one node of every text and calls it by the name of the grammar. -/
def byName : Parser := fun grammar t =>
  ⟨.mk ⟨grammar.name, true, false, false, false, 0, Text.byteLength t, none⟩ [], false⟩

/-- Calls for two packs that share a grammar, in turn, and for one with another grammar. -/
def sharedGrammar : List (LanguagePack × Text) :=
  let base := LanguagePack.plain "javascript" .javascript
  [(base, "a".toList), (base.derive "jsx-lite" .javascript, "b".toList),
    (.plain "python" .python, "c".toList), (base, "d".toList)]

/-- Packs that share a grammar share a parser, which is bound to the one that it was last used for;
and every tree has the pack that was asked for. -/
theorem run_makesFreshTrees_sharedGrammar :
    (empty.run byName .basic sharedGrammar).1.map (fun tree => tree.pack.language) =
        ["javascript", "jsx-lite", "python", "javascript"] ∧
      (∃ p, (empty.run byName .basic sharedGrammar).2.find? .javascript = some p ∧
        p.pack.language = "javascript" ∧ p.pack.grammar = .javascript) ∧
      (empty.run byName .basic sharedGrammar).2.size = 2 := by
  obtain ⟨htrees, hparsers, hsize⟩ := run_makesFreshTrees byName .basic sharedGrammar
  refine ⟨?_, ?_, hsize.trans (by decide)⟩
  · have hlanguages : sharedGrammar.map (fun call => call.1.language) =
        (empty.run byName .basic sharedGrammar).1.map (fun tree => tree.pack.language) := by
      -- The trees are compared one by one with those of parsers made for them.
      rw [← List.forall₂_eq_eq_eq, List.forall₂_map_left_iff, List.forall₂_map_right_iff]
      exact htrees.imp fun call tree h => by rw [h.2.2.2.2]
    rw [← hlanguages]
    rfl
  · obtain ⟨p, hp, hlanguage⟩ : ∃ p,
        (empty.run byName .basic sharedGrammar).2.find? .javascript = some p ∧
          p.pack.language = "javascript" := ⟨_, rfl, rfl⟩
    exact ⟨p, hp, hlanguage, (hparsers _ _ hp).2⟩

end ParserPool

end SyntaxEdit
