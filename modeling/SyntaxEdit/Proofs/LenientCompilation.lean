/-
What an engine keeps of a query text that does not compile as a whole.

The parts of the text that are tried on their own are the bracketed patterns, each with the quoted
tokens and wildcards up to the next one. They are the patterns if all of them are in brackets.

* `CompilesPatternwise` — what is relied on of a compiler, whatever it makes of a text;
* `compilesPatternwise_compile` — the compiler of the basic library is one;
* `compileWith_keeps_cuts` — the engine runs exactly the parts that compile, in order, and there is
  none exactly when no part compiles;
* `compileWith_map` — an engine does not look into what the compiler makes.
-/
import SyntaxEdit.Query.Engine
import SyntaxEdit.Proofs.PatternSplitting

namespace SyntaxEdit

open Query QueryEngine

variable {κ : Type} {concat : List κ → κ} {compiler : Text → Except QueryError κ}
  {source : QueryText} {whole : QueryError}

/-- A compiler for which white space and comments behind a text say nothing, and for which texts
that compile can be joined by blank lines, which joins what they compile to. -/
structure CompilesPatternwise (concat : List κ → κ) (compiler : Text → Except QueryError κ) :
    Prop where
  gap : ∀ {t s : Text} {query : κ}, EndsInCode t → IsGap s →
    (compiler (t ++ s) = .ok query ↔ compiler t = .ok query)
  join : ∀ {texts : List Text} {queries : List κ}, texts.map compiler = queries.map .ok →
    compiler (Text.joinWith ['\n', '\n'] texts) = .ok (concat queries)

theorem compilesPatternwise_compile (grammar : Grammar) :
    CompilesPatternwise Query.concat (Query.compile grammar) :=
  ⟨fun ht hs => compile_append_iff hs ht, compile_joinWith⟩

/-- The parts of a text that compile on their own. -/
def QueryText.kept (compiler : Text → Except QueryError κ) (source : QueryText) : List Text :=
  source.cuts.filter (compiles compiler)

theorem compiles_iff {t : Text} :
    compiles compiler t = true ↔ ∃ query, compiler t = .ok query := by
  unfold compiles
  cases compiler t <;> simp

theorem exists_queries_of_compiles {texts : List Text}
    (h : ∀ t ∈ texts, compiles compiler t = true) :
    ∃ queries : List κ, texts.map compiler = queries.map .ok := by
  induction texts with
  | nil => exact ⟨[], rfl⟩
  | cons t texts ih =>
    obtain ⟨ht, htexts⟩ := List.forall_mem_cons.1 h
    obtain ⟨query, hquery⟩ := compiles_iff.1 ht
    obtain ⟨queries, hqueries⟩ := ih htexts
    exact ⟨query :: queries, by rw [List.map_cons, List.map_cons, hquery, hqueries]⟩

/-- Texts that compile to the same, one by one, compile to the same queries. -/
theorem map_eq_of_forall₂ {texts others : List Text} {queries : List κ}
    (h : List.Forall₂ (fun t u => ∀ query, compiler t = .ok query ↔ compiler u = .ok query)
      texts others) (hqueries : texts.map compiler = queries.map .ok) :
    others.map compiler = queries.map .ok := by
  induction h generalizing queries with
  | nil => exact hqueries
  | cons hsame _ ih =>
    cases queries with
    | nil => cases hqueries
    | cons query queries =>
      obtain ⟨hquery, hrest⟩ := List.cons.inj hqueries
      rw [List.map_cons, List.map_cons, (hsame query).1 hquery, ih hrest]

namespace CompilesPatternwise

theorem compiles_piece_iff (hcompiler : CompilesPatternwise concat compiler) {cluster : Cluster}
    {piece : Text} (h : IsPieceOf cluster piece) (query : κ) :
    compiler cluster.text = .ok query ↔ compiler piece = .ok query := by
  obtain ⟨gap, hgap, rfl⟩ := h
  exact (hcompiler.gap cluster.endsInCode hgap).symm

/-- The pieces of a text compile to the same as its parts. -/
theorem forall₂_splitPatterns (hcompiler : CompilesPatternwise concat compiler)
    (source : QueryText) :
    List.Forall₂ (fun part piece => ∀ query, compiler part = .ok query ↔ compiler piece = .ok query)
      source.cuts (splitPatterns source.text) :=
  List.forall₂_map_left_iff.2
    ((SyntaxEdit.forall₂_splitPatterns source).imp fun _ _ => hcompiler.compiles_piece_iff)

/-- What is kept of the pieces are the parts that compile. -/
theorem forall₂_kept (hcompiler : CompilesPatternwise concat compiler) (source : QueryText) :
    List.Forall₂ (fun part piece => ∀ query, compiler part = .ok query ↔ compiler piece = .ok query)
      (source.kept compiler) ((splitPatterns source.text).filter (compiles compiler)) := by
  refine List.rel_filter (fun part piece h => ?_) (hcompiler.forall₂_splitPatterns source)
  show compiles compiler part = true ↔ compiles compiler piece = true
  rw [compiles_iff, compiles_iff, exists_congr h]

theorem compile_nil (hcompiler : CompilesPatternwise concat compiler) :
    compiler [] = .ok (concat []) := by
  have hnone : ([] : List Text).map compiler = ([] : List κ).map .ok := rfl
  exact hcompiler.join hnone

/-- A text that does not compile is not blank. -/
theorem not_isBlankText (hcompiler : CompilesPatternwise concat compiler)
    (hwhole : compiler source.text = .error whole) : Text.isBlankText source.text = false := by
  rw [Bool.eq_false_iff]
  intro hblank
  rw [Text.isBlankText, List.all_eq_true] at hblank
  obtain ⟨patterns, gap, hgap⟩ := source
  cases patterns with
  | nil =>
    -- A text without patterns compiles as the empty one does, against `hwhole`.
    have hempty := (hcompiler.gap (t := []) rfl hgap).2 hcompiler.compile_nil
    cases hempty.symm.trans hwhole
  | cons p patterns =>
    -- A pattern starts with a character that is not blank.
    obtain ⟨c, hc, hvisible⟩ := p.isCore.head?
    have hmem : c ∈ QueryText.text ⟨p :: patterns, gap, hgap⟩ := by
      simp [QueryText.text, PatternText.text, List.mem_of_head? hc]
    rw [hblank c hmem] at hvisible
    cases hvisible

variable [EmptyCollection κ]

/-- There is no engine if no part compiles. -/
theorem compileWith_eq_error (hcompiler : CompilesPatternwise concat compiler) (grammar : Grammar)
    (hwhole : compiler source.text = .error whole) (hkept : source.kept compiler = []) :
    compileWith compiler grammar source.text = .error ⟨grammar, whole⟩ := by
  have hpieces := hcompiler.forall₂_kept source
  rw [hkept, List.forall₂_nil_left_iff] at hpieces
  rw [compileWith, hcompiler.not_isBlankText hwhole, hwhole]
  simp [hpieces]

/-- The engine runs the parts that compile, if there are any. -/
theorem compileWith_eq_ok (hcompiler : CompilesPatternwise concat compiler) (grammar : Grammar)
    (hwhole : compiler source.text = .error whole) (hkept : source.kept compiler ≠ [])
    {queries : List κ} (hqueries : (source.kept compiler).map compiler = queries.map .ok) :
    compileWith compiler grammar source.text =
      .ok ⟨grammar, concat queries,
        source.cuts.length - (source.kept compiler).length⟩ := by
  have hparts := hcompiler.forall₂_kept source
  have hne : (splitPatterns source.text).filter (compiles compiler) ≠ [] := by
    intro hnil
    rw [hnil, List.forall₂_nil_right_iff] at hparts
    exact hkept hparts
  have hjoin := hcompiler.join (map_eq_of_forall₂ hparts hqueries)
  rw [compileWith, hcompiler.not_isBlankText hwhole, hwhole, hparts.length_eq,
    (hcompiler.forall₂_splitPatterns source).length_eq]
  simp [hne, hjoin]

/-- **An engine for a text that does not compile runs exactly the parts that compile**, in the order
of the text, and counts the others. There is none exactly when no part compiles. -/
theorem compileWith_keeps_cuts (hcompiler : CompilesPatternwise concat compiler) (grammar : Grammar)
    (hwhole : compiler source.text = .error whole) :
    ((∃ e, compileWith compiler grammar source.text = .error e) ↔
        ∀ part ∈ source.cuts, compiles compiler part = false) ∧
      (∀ engine, compileWith compiler grammar source.text = .ok engine →
        ∃ queries : List κ, (source.kept compiler).map compiler = queries.map .ok ∧
          engine = ⟨grammar, concat queries,
            source.cuts.length - (source.kept compiler).length⟩) ∧
      ((∀ p ∈ source.patterns, p.bracketed = true) →
        source.cuts = source.patterns.map PatternText.text) := by
  have hnone : source.kept compiler = [] ↔
      ∀ part ∈ source.cuts, compiles compiler part = false := by
    rw [QueryText.kept, List.filter_eq_nil_iff]
    simp
  have hcompiles : ∀ t ∈ source.kept compiler, compiles compiler t = true :=
    fun t ht => (List.mem_filter.1 ht).2
  -- Each kept piece compiles alone, so it has a query to be joined.
  obtain ⟨queries, hqueries⟩ := exists_queries_of_compiles hcompiles
  refine ⟨?_, ?_, QueryText.cuts_of_bracketed⟩
  · rw [← hnone]
    constructor
    · rintro ⟨e, he⟩
      -- With a piece left there would be an engine.
      by_contra hkept
      rw [hcompiler.compileWith_eq_ok grammar hwhole hkept hqueries] at he
      cases he
    · intro hkept
      exact ⟨_, hcompiler.compileWith_eq_error grammar hwhole hkept⟩
  · intro engine hengine
    refine ⟨queries, hqueries, ?_⟩
    by_cases hkept : source.kept compiler = []
    · rw [hcompiler.compileWith_eq_error grammar hwhole hkept] at hengine
      cases hengine
    · rw [hcompiler.compileWith_eq_ok grammar hwhole hkept hqueries] at hengine
      exact (Except.ok.inj hengine).symm

end CompilesPatternwise

/-! ### The basic library -/

/-- An engine with something else in place of its query. -/
def EngineOf.map {κ' : Type} (f : κ → κ') (engine : EngineOf κ) : EngineOf κ' :=
  ⟨engine.grammar, f engine.query, engine.dropped⟩

/-- What a compiler makes of texts may be turned into something else before or after. -/
theorem compileWith_map {κ' : Type} [EmptyCollection κ] [EmptyCollection κ'] (f : κ → κ')
    (hempty : f ∅ = ∅) (compiler : Text → Except QueryError κ) (grammar : Grammar) (source : Text) :
    compileWith (fun t => (compiler t).map f) grammar source =
      (compileWith compiler grammar source).map (EngineOf.map f) := by
  -- The same pieces compile, so the same ones are kept and counted.
  have hcompiles : compiles (fun t => (compiler t).map f) = compiles compiler := by
    funext t
    rw [compiles, compiles]
    cases compiler t <;> rfl
  rw [compileWith, compileWith, hcompiles]
  split
  · rw [← hempty]
    rfl
  · cases compiler source with
    | ok query => rfl
    | error whole =>
      simp only [Except.map]
      split
      · rfl
      · cases compiler (Text.joinWith ['\n', '\n'] _) <;> rfl

theorem Query.compiled_empty : Query.empty.compiled = ∅ := by
  have hnone : Query.empty.matchesIn = fun _ _ => [] := by
    funext root source
    simp [Query.matchesIn, Query.empty]
  rw [Query.compiled, hnone]
  rfl

/-- An engine of the basic library is one for its compiler. -/
theorem QueryEngine.compile_basic (grammar : Grammar) (source : Text) :
    QueryEngine.compile grammar source =
      (compileWith (Query.compile grammar) grammar source).map (EngineOf.map Query.compiled) :=
  compileWith_map Query.compiled Query.compiled_empty (Query.compile grammar) grammar source

/-! ### Texts with a wildcard -/

/-- A pattern on a line of its own, with one capture. -/
def PatternText.onLine {bracketed : Bool} (core name : Text) (hcore : IsCore bracketed core)
    (hname : name ≠ []) (hchars : name.all inCaptureName = true) : PatternText :=
  have hcaptures : IsCaptures ([' '] ++ '@' :: name ++ []) := .capture ⟨rfl, rfl⟩ hname hchars .nil
  ⟨['\n'], core, [' '] ++ '@' :: name ++ [], bracketed, ⟨rfl, rfl⟩, hcore, hcaptures⟩

/-- Any node: `_ @k`. -/
def anyNode : PatternText :=
  .onLine ['_'] ['k'] .wildcard (by decide) (by decide)

/-- Any named node: `(_) @i`. -/
def anyNamedNode : PatternText :=
  .onLine ('(' :: ['_'] ++ [')']) ['i'] (.brackets .round (isBalanced_of_isPlain (by decide)))
    (by decide) (by decide)

/-- A condition on a capture that there is not: `(_ (#eq? @x a)) @n`. -/
def withoutCapture : PatternText :=
  .onLine ('(' :: ('_' :: ' ' :: ('(' :: "#eq? @x a".toList ++ ')' :: [])) ++ [')']) ['n']
    (.brackets .round (.plain (by decide) (.plain (by decide)
      (.brackets .round (isBalanced_of_isPlain (by decide)) .nil))))
    (by decide) (by decide)

/-- What the pattern for any node compiles to. -/
def queryOfAny : Query :=
  ⟨[⟨.captured (.node .any (.done false)) "k", []⟩], ["k"]⟩

/-- What the pattern for any named node compiles to. -/
def queryOfAnyNamed : Query :=
  ⟨[⟨.captured (.node .anyNamed (.done false)) "i", []⟩], ["i"]⟩

theorem compile_anyNode : Query.compile .javascript anyNode.text = .ok queryOfAny := rfl

theorem compile_anyNamedNode :
    Query.compile .javascript anyNamedNode.text = .ok queryOfAnyNamed := rfl

theorem exists_error_of_compiles_eq_false {t : Text} (h : compiles compiler t = false) :
    ∃ e, compiler t = .error e := by
  cases hresult : compiler t with
  | ok query =>
    rw [compiles_iff.2 ⟨query, hresult⟩] at h
    cases h
  | error e => exact ⟨e, rfl⟩

/-- A pattern that does not compile, and the one for any named node. -/
def namedNodesOnly : QueryText :=
  ⟨[withoutCapture, anyNamedNode], ['\n'], rfl⟩

/-- The same patterns behind a wildcard. -/
def wildcardFirst : QueryText :=
  ⟨[anyNode, withoutCapture, anyNamedNode], ['\n'], rfl⟩

/-- Of two patterns in brackets the one that compiles is kept. -/
theorem compileWith_keeps_anyNamedNode :
    (∃ whole, Query.compile .javascript namedNodesOnly.text = .error whole) ∧
      QueryEngine.compile .javascript namedNodesOnly.text =
        .ok ⟨.javascript, (Query.concat [queryOfAnyNamed]).compiled, 1⟩ := by
  have hfalse : compiles (Query.compile .javascript) namedNodesOnly.text = false := by
    decide +kernel
  obtain ⟨whole, hwhole⟩ := exists_error_of_compiles_eq_false hfalse
  have hkept : namedNodesOnly.kept (Query.compile .javascript) = [anyNamedNode.text] := by
    decide +kernel
  obtain ⟨hfails, hruns, hcuts⟩ := CompilesPatternwise.compileWith_keeps_cuts
    (compilesPatternwise_compile .javascript) .javascript hwhole
  refine ⟨⟨whole, hwhole⟩, ?_⟩
  rw [QueryEngine.compile_basic]
  cases hresult : compileWith (Query.compile .javascript) .javascript namedNodesOnly.text with
  | error e =>
    -- Then no part would compile, but the pattern for any named node does.
    have hmem : anyNamedNode.text ∈ namedNodesOnly.kept (Query.compile .javascript) := by
      simp [hkept]
    obtain ⟨hpart, hcompiles⟩ := List.mem_filter.1 hmem
    rw [hfails.1 ⟨e, hresult⟩ _ hpart] at hcompiles
    cases hcompiles
  | ok engine =>
    obtain ⟨queries, hqueries, rfl⟩ := hruns engine hresult
    rw [hkept, List.map_singleton, compile_anyNamedNode] at hqueries
    obtain rfl : queries = [queryOfAnyNamed] :=
      List.map_injective_iff.2 (fun _ _ => Except.ok.inj) hqueries.symm
    rw [hkept, hcuts (by decide)]
    rfl

/-- A wildcard in front of all brackets is lost, though it compiles, and is not counted either. -/
theorem compile_loses_wildcard :
    (wildcardFirst.patterns.map PatternText.text).filter (compiles (Query.compile .javascript)) =
        [anyNode.text, anyNamedNode.text] ∧
      compiles (Query.compile .javascript) wildcardFirst.text = false ∧
      QueryEngine.compile .javascript wildcardFirst.text =
        .ok ⟨.javascript, queryOfAnyNamed.compiled, 1⟩ ∧
      ¬∃ queries : List Query,
        ((wildcardFirst.patterns.map PatternText.text).filter
          (compiles (Query.compile .javascript))).map (Query.compile .javascript) =
            queries.map .ok ∧ queryOfAnyNamed.compiled = (Query.concat queries).compiled := by
  have hfilter : (wildcardFirst.patterns.map PatternText.text).filter
      (compiles (Query.compile .javascript)) = [anyNode.text, anyNamedNode.text] := by
    decide +kernel
  refine ⟨hfilter, by decide +kernel, rfl, ?_⟩
  rintro ⟨queries, hqueries, hconcat⟩
  rw [hfilter, List.map_cons, List.map_singleton, compile_anyNode, compile_anyNamedNode]
    at hqueries
  obtain rfl : queries = [queryOfAny, queryOfAnyNamed] :=
    List.map_injective_iff.2 (fun _ _ => Except.ok.inj) hqueries.symm
  -- The capture of the wildcard is in the joined query and not in the engine.
  have hnames := congrArg CompiledQuery.captureNames hconcat
  revert hnames
  decide

end SyntaxEdit
