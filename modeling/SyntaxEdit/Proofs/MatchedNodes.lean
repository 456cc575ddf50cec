/-
The constructs of a tree are nodes of the tree.

This rests on what is relied on of the library that runs the queries: it captures nodes of the tree.
An engine runs what the library compiled, or nothing, and the construct of a match is a captured
node or the parent of one.

* `QueryEngine.query_of_compileWith` — what an engine runs;
* `SyntaxTree.mem_nodes_of_constructs` — so all constructs of a tree are nodes of it;
* `QueryLibrary.findsNodes_basic` — the basic library can be relied on: its patterns only ever go
  down from a node to its children.
-/
import SyntaxEdit.Construct.Index
import SyntaxEdit.Proofs.NodePaths

namespace SyntaxEdit

/-! ### What an engine runs -/

/-- An engine runs a query that was compiled, or one that never matches. -/
theorem QueryEngine.query_of_compileWith {κ : Type} [EmptyCollection κ]
    {compiler : Text → Except QueryError κ} {grammar : Grammar} {source : Text}
    {engine : EngineOf κ} (h : compileWith compiler grammar source = .ok engine) :
    engine.query = ∅ ∨ ∃ text, compiler text = .ok engine.query := by
  rw [compileWith] at h
  split at h
  · obtain rfl := Except.ok.inj h
    exact .inl rfl
  · split at h
    · rename_i query hwhole
      obtain rfl := Except.ok.inj h
      exact .inr ⟨source, hwhole⟩
    · -- The text does not compile as a whole, so what is left of it is tried.
      dsimp only at h
      split at h
      · cases h
      · split at h
        · rename_i query hkept
          obtain rfl := Except.ok.inj h
          exact .inr ⟨_, hkept⟩
        · cases h

/-- So it captures what the library can be relied on to capture. -/
theorem QueryLibrary.FindsNodes.at?_of_compile {queries : QueryLibrary} (h : queries.FindsNodes)
    {grammar : Grammar} {source : Text} {engine : QueryEngine}
    (hengine : QueryEngine.compile grammar source queries = .ok engine) {root : Node} {text : Text}
    {m : QueryMatch} (hm : m ∈ engine.query.matchesIn root text) :
    ∀ capture ∈ m.captures, root.at? capture.2.address = some capture.2.node := by
  rcases QueryEngine.query_of_compileWith hengine with hempty | ⟨kept, hkept⟩
  · rw [hempty] at hm
    cases hm
  · exact h.at?_eq hkept hm

/-! ### Constructs -/

/-- The construct of a match is one of the captured nodes or the parent of one. -/
theorem QueryEngine.mem_nodes_of_constructOf? {t : SyntaxTree} {captures : List (String × Located)}
    (hcaptures : ∀ entry ∈ captures, entry.2 ∈ t.nodes) {n : Located}
    (h : constructOf? t captures = some n) : n ∈ t.nodes := by
  simp only [constructOf?, Option.orElse_eq_orElse, Option.orElse_eq_or, Option.or_eq_some_iff]
    at h
  rcases h with h | ⟨-, h | ⟨-, h⟩⟩
  · obtain ⟨entry, hentry, rfl⟩ := Option.map_eq_some_iff.1 h
    exact hcaptures entry (List.mem_of_find?_eq_some hentry)
  · obtain ⟨entry, hentry, hparent⟩ := Option.bind_eq_some_iff.1 h
    exact SyntaxTree.mem_nodes_of_parent? hparent
  · obtain ⟨entry, hentry, rfl⟩ := Option.map_eq_some_iff.1 h
    exact hcaptures entry (List.mem_of_mem_head? hentry)

theorem SyntaxTree.mem_nodes_of_constructs {t : SyntaxTree} (hqueries : t.queries.FindsNodes)
    {category : QueryCategory} {m : ConstructMatch} (h : m ∈ t.constructs category) :
    m.node ∈ t.nodes := by
  simp only [SyntaxTree.constructs] at h
  split at h
  · cases h
  · split at h
    · rename_i engine hengine
      obtain ⟨found, hfound, hm⟩ := List.mem_filterMap.1 h
      obtain ⟨n, hn, rfl⟩ := Option.map_eq_some_iff.1 hm
      refine QueryEngine.mem_nodes_of_constructOf? (fun capture hcapture => ?_) hn
      exact mem_nodes_iff.2 (hqueries.at?_of_compile hengine hfound capture hcapture)
    · cases h

theorem mem_of_mem_inDocumentOrder {α : Type} {nodeOf : α → Located} {entries : List α} {a : α}
    (h : a ∈ inDocumentOrder nodeOf entries) : a ∈ entries :=
  mem_firstOfEach (List.mem_mergeSort.1 h)

namespace ConstructIndex

variable {t : SyntaxTree} (hqueries : t.queries.FindsNodes)

include hqueries

theorem mem_nodes_of_mem_namedIn {category : QueryCategory} {c : NamedConstruct}
    (h : c ∈ namedIn t category) : c.node ∈ t.nodes := by
  obtain ⟨m, hm, hc⟩ := List.mem_filterMap.1 (mem_of_mem_inDocumentOrder h)
  obtain ⟨name, -, rfl⟩ := Option.map_eq_some_iff.1 hc
  exact SyntaxTree.mem_nodes_of_constructs hqueries hm

theorem mem_nodes_of_mem_build {c : NamedConstruct}
    (h : c ∈ (build t).classes ++ ((build t).methods ++ (build t).properties)) :
    c.node ∈ t.nodes := by
  rw [List.mem_append, List.mem_append] at h
  rcases h with h | h | h
  · exact mem_nodes_of_mem_namedIn hqueries h
  · exact mem_nodes_of_mem_namedIn hqueries h
  · exact mem_nodes_of_mem_namedIn hqueries h

theorem mem_nodes_of_mem_blocks {b : BlockConstruct} (h : b ∈ (build t).blocks) :
    b.node ∈ t.nodes := by
  obtain ⟨m, hm, hb⟩ := List.mem_filterMap.1 (mem_of_mem_inDocumentOrder h)
  obtain ⟨callee, -, rfl⟩ := Option.map_eq_some_iff.1 hb
  exact SyntaxTree.mem_nodes_of_constructs hqueries hm

end ConstructIndex

/-! ### The basic library -/

theorem mem_of_mem_reachable {anchored : Bool} {siblings : List Located}
    {step : Located × List Located} (h : step ∈ reachable anchored siblings) :
    step.1 ∈ siblings ∧ step.2 ⊆ siblings := by
  induction siblings with
  | nil => cases h
  | cons sibling rest ih =>
    rw [reachable, List.mem_cons] at h
    rcases h with rfl | h
    · exact ⟨List.mem_cons_self, List.subset_cons_self _ _⟩
    · split at h
      · cases h
      · obtain ⟨hsibling, hafter⟩ := ih h
        exact ⟨List.mem_cons_of_mem _ hsibling, fun s hs => List.mem_cons_of_mem _ (hafter hs)⟩

mutual

/-- What holds of a node and is handed down to children holds of all captured nodes. -/
theorem Pattern.of_mem_matchesAt {P : Located → Prop}
    (hdown : ∀ n, P n → ∀ child ∈ n.children, P child) (pattern : Pattern) {n : Located} (hn : P n)
    {m : PatternMatch} (hm : m ∈ pattern.matchesAt n) : ∀ entry ∈ m.captures, P entry.2 := by
  match pattern with
  | .node test steps =>
    rw [Pattern.matchesAt] at hm
    split at hm
    · -- Only the steps of a pattern leave the node, and they go to its children.
      exact Steps.of_mem_matchesAmong hdown steps (hdown n hn) hm
    · cases hm
  | .oneOf alternatives =>
    rw [Pattern.matchesAt] at hm
    exact of_mem_anyMatchesAt hdown alternatives hn hm
  | .inField field inner =>
    rw [Pattern.matchesAt] at hm
    split at hm
    · exact Pattern.of_mem_matchesAt hdown inner hn hm
    · cases hm
  | .captured inner name =>
    rw [Pattern.matchesAt, List.mem_map] at hm
    obtain ⟨below, hbelow, rfl⟩ := hm
    intro entry hentry
    rcases List.mem_cons.1 hentry with rfl | hentry
    · exact hn
    · exact Pattern.of_mem_matchesAt hdown inner hn hbelow entry hentry

theorem of_mem_anyMatchesAt {P : Located → Prop}
    (hdown : ∀ n, P n → ∀ child ∈ n.children, P child) (patterns : List Pattern) {n : Located}
    (hn : P n) {m : PatternMatch} (hm : m ∈ anyMatchesAt patterns n) :
    ∀ entry ∈ m.captures, P entry.2 := by
  match patterns with
  | [] => cases hm
  | pattern :: rest =>
    rw [anyMatchesAt, List.mem_append] at hm
    rcases hm with hm | hm
    · exact Pattern.of_mem_matchesAt hdown pattern hn hm
    · exact of_mem_anyMatchesAt hdown rest hn hm

theorem Steps.of_mem_matchesAmong {P : Located → Prop}
    (hdown : ∀ n, P n → ∀ child ∈ n.children, P child) (steps : Steps) {last : Located}
    {siblings : List Located} (hsiblings : ∀ s ∈ siblings, P s) {m : PatternMatch}
    (hm : m ∈ steps.matchesAmong last siblings) : ∀ entry ∈ m.captures, P entry.2 := by
  match steps with
  | .done closed =>
    rw [Steps.matchesAmong] at hm
    split at hm
    · cases hm
    · obtain rfl := List.mem_singleton.1 hm
      simp
  | .next anchored pattern rest =>
    rw [Steps.matchesAmong, List.mem_flatMap] at hm
    obtain ⟨⟨sibling, after⟩, hstep, hm⟩ := hm
    obtain ⟨first, hfirst, hm⟩ := List.mem_flatMap.1 hm
    obtain ⟨others, hothers, rfl⟩ := List.mem_map.1 hm
    -- The sibling and those behind it are among the siblings that were there.
    obtain ⟨hsibling, hafter⟩ := mem_of_mem_reachable hstep
    intro entry hentry
    rcases List.mem_append.1 hentry with hentry | hentry
    · exact Pattern.of_mem_matchesAt hdown pattern (hsiblings _ hsibling) hfirst entry hentry
    · exact Steps.of_mem_matchesAmong hdown rest (fun s hs => hsiblings s (hafter hs)) hothers
        entry hentry

end

/-- Removing duplicates adds nothing. -/
theorem mem_of_mem_eraseDupsBy {α : Type} {same : α → α → Bool} {a : α} {entries : List α}
    (h : a ∈ entries.eraseDupsBy same) : a ∈ entries := by
  match entries with
  | [] => exact h
  | entry :: rest =>
    rw [List.eraseDupsBy_cons, List.mem_cons] at h
    rcases h with rfl | h
    · exact List.mem_cons_self
    · -- What is like the first entry is dropped from the rest, so the rest is no longer.
      have hkept := mem_of_mem_eraseDupsBy h
      exact List.mem_cons_of_mem _ (List.mem_filter.1 hkept).1
termination_by entries.length
decreasing_by exact Nat.lt_succ_of_le (List.length_filter_le _ _)

theorem Query.at?_of_mem_matchesIn {query : Query} {root : Node} {source : Text} {m : QueryMatch}
    (h : m ∈ query.matchesIn root source) :
    ∀ capture ∈ m.captures, root.at? capture.2.address = some capture.2.node := by
  obtain ⟨completed, hcompleted, rfl⟩ := List.mem_map.1 h
  have hfound := List.mem_mergeSort.1 (mem_of_mem_eraseDupsBy hcompleted)
  obtain ⟨⟨pattern, number⟩, -, hfound⟩ := List.mem_flatMap.1 hfound
  obtain ⟨n, hn, hfound⟩ := List.mem_flatMap.1 hfound
  obtain ⟨inner, hinner, rfl⟩ := List.mem_map.1 hfound
  -- Being a node below the root is handed down to children, so the pattern cannot leave the tree.
  exact Pattern.of_mem_matchesAt (P := fun n => root.at? n.address = some n.node)
    (fun _ hparent _ hchild => Located.at?_of_mem_children hparent hchild) pattern.pattern
    ((mem_preorder_iff root n).1 hn) (List.mem_filter.1 hinner).1

/-- The basic library captures nodes of the tree. -/
theorem QueryLibrary.findsNodes_basic : QueryLibrary.basic.FindsNodes where
  at?_eq := by
    intro grammar source query hquery root text m hm
    rw [QueryLibrary.basic] at hquery
    cases hread : Query.compile grammar source with
    | error e =>
      rw [hread] at hquery
      cases hquery
    | ok patterns =>
      rw [hread] at hquery
      obtain rfl := Except.ok.inj hquery
      exact Query.at?_of_mem_matchesIn hm

end SyntaxEdit
