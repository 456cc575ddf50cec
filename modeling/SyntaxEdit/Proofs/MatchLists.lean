/-
The list of the matches of a semantic path.

Repeated matches are dropped by range and path, and what is left is sorted by range only.  A node
that several queries find is still listed once, and nodes with one range stay apart, since the path
of a node tells it from all others.

* `ConstructIndex.pairwise_resolve` — the matches stand in document order;
* `SyntaxTree.Selects` — the nodes that a text names as a semantic path;
* `nodup_path_findSemantic`, `exists_match_of_selects` — each of these nodes has exactly one match;
* `findSemantic_lists_selected` — all of this in one, and when an edit is ambiguous.
-/
import Mathlib.Data.List.Nodup
import SyntaxEdit.Proofs.Refusals

namespace SyntaxEdit

namespace ConstructIndex

variable {index : ConstructIndex}

/-! ### Order -/

/-- The matches of a path are sorted: they start later and later, and where two start together the
longer one comes first. -/
theorem pairwise_resolve (path : SemanticPath) :
    (index.resolve path).Pairwise fun a b =>
      a.start < b.start ∨ a.start = b.start ∧ b.stop ≤ a.stop := by
  have hsorted : (index.resolve path).Pairwise fun a b =>
      (a.start < b.start || (a.start == b.start && b.stop ≤ a.stop)) = true := by
    refine List.pairwise_mergeSort (fun a b c hab hbc => ?_) (fun a b => ?_) _
    · simp only [Bool.or_eq_true, Bool.and_eq_true, beq_iff_eq, decide_eq_true_eq] at hab hbc ⊢
      omega
    · simp only [Bool.or_eq_true, Bool.and_eq_true, beq_iff_eq, decide_eq_true_eq]
      omega
  refine hsorted.imp fun {a b} hab => ?_
  simpa using hab

/-! ### Repeated matches -/

/-- No two matches of a path have the same range and path. -/
theorem nodup_key_resolve (path : SemanticPath) :
    ((index.resolve path).map fun m => (m.start, m.stop, m.path)).Nodup := by
  have hperm := List.mergeSort_perm
    (firstOfEach (fun m => (m.start, m.stop, m.path)) (index.select path))
    fun a b => a.start < b.start || (a.start == b.start && b.stop ≤ a.stop)
  exact (hperm.map _).nodup_iff.2 (nodup_map_firstOfEach _ _)

end ConstructIndex

namespace SyntaxTree

variable {t : SyntaxTree} {path : Text} {n : Located} {m m' : SemanticMatch}

/-- Whether a text reads as a semantic path that names a node: a class, method, property or block of
the index. -/
def Selects (t : SyntaxTree) (path : Text) (n : Located) : Prop :=
  ∃ q, SemanticPath.parse? path = some q ∧ (ConstructIndex.build t).Names q n

theorem Selects.mem_nodes (hqueries : t.queries.FindsNodes) (h : t.Selects path n) :
    n ∈ t.nodes := by
  obtain ⟨q, -, hnames⟩ := h
  exact mem_nodes_of_names hqueries hnames

/-- A match tells the path, the range and the text of a node that is selected. -/
theorem exists_selects_of_mem_findSemantic (hqueries : t.queries.FindsNodes)
    (h : m ∈ t.findSemantic path) :
    ∃ n, t.Selects path n ∧ m.path = t.pathOf n ∧ m.start = n.start ∧ m.stop = n.stop ∧
      m.text = t.textOf n.node := by
  obtain ⟨n, hn, hpath, hstart, hstop, htext⟩ := exists_node_of_mem_findSemantic hqueries h
  have hselects := (exists_mem_findSemantic_iff hqueries hn).1 ⟨m, h, hpath⟩
  exact ⟨n, hselects, hpath, hstart, hstop, htext⟩

/-- Matches with one path are one match: the path tells the node, and the node has one range. -/
theorem eq_of_path_eq (hqueries : t.queries.FindsNodes) (hm : m ∈ t.findSemantic path)
    (hm' : m' ∈ t.findSemantic path) (h : m.path = m'.path) : m = m' := by
  obtain ⟨n, hn, hpath, hstart, hstop, -⟩ := exists_node_of_mem_findSemantic hqueries hm
  obtain ⟨n', hn', hpath', hstart', hstop', -⟩ := exists_node_of_mem_findSemantic hqueries hm'
  obtain rfl : n = n' := pathOf_injective hn hn' (by rw [← hpath, ← hpath', h])
  rw [findSemantic] at hm hm'
  split at hm
  · rename_i q hq
    simp only [hq] at hm'
    refine List.inj_on_of_nodup_map (ConstructIndex.nodup_key_resolve q) hm hm' ?_
    simp only [Prod.mk.injEq]
    exact ⟨hstart.trans hstart'.symm, hstop.trans hstop'.symm, h⟩
  · cases hm

/-- No node has two matches. -/
theorem nodup_path_findSemantic (hqueries : t.queries.FindsNodes) (path : Text) :
    ((t.findSemantic path).map SemanticMatch.path).Nodup := by
  refine List.Nodup.map_on (fun m hm m' hm' => eq_of_path_eq hqueries hm hm') ?_
  rw [findSemantic]
  split
  · exact (ConstructIndex.nodup_key_resolve _).of_map _
  · exact List.nodup_nil

/-- A selected node has a match. -/
theorem exists_match_of_selects (hqueries : t.queries.FindsNodes) (h : t.Selects path n) :
    ∃ m ∈ t.findSemantic path, t.resolve? m.path = some n := by
  obtain ⟨m, hm, hpath⟩ := (exists_mem_findSemantic_iff hqueries (h.mem_nodes hqueries)).2 h
  exact ⟨m, hm, by rw [hpath, resolve?_pathOf (h.mem_nodes hqueries)]⟩

/-- Several matches are matches of several nodes. -/
theorem two_le_length_findSemantic_iff (hqueries : t.queries.FindsNodes) :
    2 ≤ (t.findSemantic path).length ↔
      ∃ n n', t.Selects path n ∧ t.Selects path n' ∧ n.address ≠ n'.address := by
  constructor
  · intro hmany
    match hfound : t.findSemantic path with
    | [] => simp [hfound] at hmany
    | [m] => simp [hfound] at hmany
    | first :: second :: others =>
      have hfirst : first ∈ t.findSemantic path := by simp [hfound]
      have hsecond : second ∈ t.findSemantic path := by simp [hfound]
      have hne : first.path ≠ second.path := by
        have hnodup := nodup_path_findSemantic hqueries path
        rw [hfound] at hnodup
        intro hsame
        simp [hsame] at hnodup
      obtain ⟨n, hn, hpath, -⟩ := exists_selects_of_mem_findSemantic hqueries hfirst
      obtain ⟨n', hn', hpath', -⟩ := exists_selects_of_mem_findSemantic hqueries hsecond
      refine ⟨n, n', hn, hn', fun haddress => hne ?_⟩
      rw [hpath, hpath',
        eq_of_address_eq (hn.mem_nodes hqueries) (hn'.mem_nodes hqueries) haddress]
  · rintro ⟨n, n', hn, hn', hne⟩
    obtain ⟨m, hm, hresolve⟩ := exists_match_of_selects hqueries hn
    obtain ⟨m', hm', hresolve'⟩ := exists_match_of_selects hqueries hn'
    match hfound : t.findSemantic path with
    | [] => simp [hfound] at hm
    | [only] =>
      -- One match would be about both nodes.
      obtain rfl : m = only := by simpa [hfound] using hm
      obtain rfl : m' = m := by simpa [hfound] using hm'
      rw [hresolve, Option.some.injEq] at hresolve'
      exact absurd (congrArg Located.address hresolve') hne
    | first :: second :: others => simp

/-- **Semantic paths are resolved soundly and without repetition**, whatever library runs the
queries, as long as it finds nodes of the tree.  The matches stand in document order, no node has
two, and each gives the range and the text of the node that its path names, which is selected.
Every selected node has exactly one match.  So an edit is ambiguous exactly where it takes its path
for a semantic one that selects at least two nodes. -/
theorem findSemantic_lists_selected (hqueries : t.queries.FindsNodes) (hslices : t.HasSlices)
    (path : Text) :
    ((t.findSemantic path).Pairwise fun a b =>
      a.start < b.start ∨ a.start = b.start ∧ b.stop ≤ a.stop) ∧
    ((t.findSemantic path).map SemanticMatch.path).Nodup ∧
    (∀ m ∈ t.findSemantic path, ∃ n, t.Selects path n ∧ t.resolve? m.path = some n ∧
      n.start = m.start ∧ n.stop = m.stop ∧
      Text.slice? t.source m.start m.stop = some m.text) ∧
    (∀ n, t.Selects path n → ∃ m ∈ t.findSemantic path, t.resolve? m.path = some n ∧
      ∀ m' ∈ t.findSemantic path, t.resolve? m'.path = some n → m' = m) ∧
    ∀ change : Edit,
      (∃ descriptions, change.textAfter t = .error (.ambiguousPath path descriptions)) ↔
        change.semanticPath? = some path ∧
          ∃ n n', t.Selects path n ∧ t.Selects path n' ∧ n.address ≠ n'.address := by
  refine ⟨?_, nodup_path_findSemantic hqueries path, fun m hm => ?_, fun n hn => ?_,
    fun change => ?_⟩
  · rw [findSemantic]
    split
    · exact ConstructIndex.pairwise_resolve _
    · exact List.Pairwise.nil
  · obtain ⟨n, hn, hpath, hstart, hstop, htext⟩ := exists_selects_of_mem_findSemantic hqueries hm
    have hmem := hn.mem_nodes hqueries
    refine ⟨n, hn, by rw [hpath, resolve?_pathOf hmem], hstart.symm, hstop.symm, ?_⟩
    obtain ⟨front, back, hsource, hfront, hback⟩ := exists_source_eq hslices hmem
    rw [hstart, hstop, htext]
    exact Text.slice?_eq_some_iff.2 ⟨front, back, hsource, hfront, hback⟩
  · -- Matches of one node have one path, so there is no second one.
    obtain ⟨m, hm, hresolve⟩ := exists_match_of_selects hqueries hn
    refine ⟨m, hm, hresolve, fun m' hm' hresolve' => eq_of_path_eq hqueries hm' hm ?_⟩
    rw [← pathOf_of_resolve? hresolve, ← pathOf_of_resolve? hresolve']
  · simp only [Edit.textAfter_eq_ambiguousPath_iff, ← two_le_length_findSemantic_iff hqueries]
    constructor
    · rintro ⟨descriptions, hpath, hmany, -⟩
      exact ⟨hpath, hmany⟩
    · rintro ⟨hpath, hmany⟩
      exact ⟨_, hpath, hmany, rfl⟩

/-- The tree of a commented function. Its queries find the function as a method and as a property,
and the name of the function as a class. -/
def ofOverlappingQueries : SyntaxTree :=
  { ofFunction "f".toList with
    pack := (functionPack.withQuery .properties
      "(function_declaration (simple_identifier) @name) @property".toList).withQuery .classes
      "(simple_identifier) @name @class".toList }

/-- The function has one match, though two queries find it, and an edit of it is ambiguous only
because its name is another node under that name. -/
theorem findSemantic_overlappingQueries :
    ofOverlappingQueries.HasSlices ∧ ∃ n,
      (∃ c ∈ (ConstructIndex.build ofOverlappingQueries).methods, c.node = n) ∧
      (∃ c ∈ (ConstructIndex.build ofOverlappingQueries).properties, c.node = n) ∧
      (∃ m ∈ ofOverlappingQueries.findSemantic "f".toList,
        ofOverlappingQueries.resolve? m.path = some n ∧
        ∀ m' ∈ ofOverlappingQueries.findSemantic "f".toList,
          ofOverlappingQueries.resolve? m'.path = some n → m' = m) ∧
      ∃ descriptions, (Edit.delete .semantic "f".toList).textAfter ofOverlappingQueries =
        .error (.ambiguousPath "f".toList descriptions) := by
  have hfound : ∀ (cs : List NamedConstruct) (address : Address),
      cs ⊆ (ConstructIndex.build ofOverlappingQueries).classes ++
        ((ConstructIndex.build ofOverlappingQueries).methods ++
          (ConstructIndex.build ofOverlappingQueries).properties) →
      (cs.map fun c => (c.node.address, c.name)) = [(address, "f".toList)] →
      ∃ c ∈ cs, c.node.address = address ∧ ofOverlappingQueries.Selects "f".toList c.node := by
    intro cs address hcs heq
    obtain ⟨c, hc, hentry⟩ := List.mem_map.1 (heq ▸ List.mem_singleton_self _)
    obtain ⟨haddress, hname⟩ := Prod.mk.inj hentry
    exact ⟨c, hc, haddress, .name "f".toList, by decide +kernel, .inl ⟨c, hcs hc, rfl, hname⟩⟩
  have hslices : ofOverlappingQueries.HasSlices := by decide
  obtain ⟨method, hmethod, hat, hselects⟩ :=
    hfound (ConstructIndex.build ofOverlappingQueries).methods [1]
      (fun c hc => by simp [hc]) (by decide +kernel)
  obtain ⟨property, hproperty, hat', hselects'⟩ :=
    hfound (ConstructIndex.build ofOverlappingQueries).properties [1]
      (fun c hc => by simp [hc]) (by decide +kernel)
  obtain ⟨own, -, howner, hother⟩ :=
    hfound (ConstructIndex.build ofOverlappingQueries).classes [1, 1]
      (fun c hc => by simp [hc]) (by decide +kernel)
  have hqueries : ofOverlappingQueries.queries.FindsNodes := QueryLibrary.findsNodes_basic
  obtain ⟨-, -, -, honce, hambiguous⟩ := findSemantic_lists_selected hqueries hslices "f".toList
  refine ⟨hslices, method.node, ⟨method, hmethod, rfl⟩, ⟨property, hproperty, ?_⟩,
    honce _ hselects, (hambiguous _).2 ⟨rfl, method.node, own.node, hselects, hother, ?_⟩⟩
  · exact eq_of_address_eq (hselects'.mem_nodes hqueries) (hselects.mem_nodes hqueries)
      (hat'.trans hat.symm)
  · simp [hat, howner]

end SyntaxTree

end SyntaxEdit
