/-
Listing the constructs of a tree, and finding them by what is listed.

* `ConstructIndex.Names` — what a semantic path names, as a predicate on nodes;
* `exists_mem_resolve_iff` — looking a path up finds the nodes that it names;
* `names_of_mem_listing` — every construct is named by the path it is listed under;
* `exists_mem_findSemantic_iff` — so the written path finds the construct exactly if it reads back,
  or happens to read as another path that names the construct as well.
-/
import SyntaxEdit.Construct.Resolution
import SyntaxEdit.Proofs.MatchedNodes
import SyntaxEdit.Proofs.SemanticCodec

namespace SyntaxEdit

/-! ### The smallest class around a node -/

theorem mem_of_shortest? {constructs : List NamedConstruct} {c : NamedConstruct}
    (h : shortest? constructs = some c) : c ∈ constructs := by
  induction constructs generalizing c with
  | nil => cases h
  | cons first rest ih =>
    rw [shortest?] at h
    split at h
    · rename_i best hbest
      split at h <;> obtain rfl := Option.some.inj h
      · exact List.mem_cons_of_mem _ (ih hbest)
      · exact List.mem_cons_self
    · obtain rfl := Option.some.inj h
      exact List.mem_cons_self

theorem shortest?_eq_none_iff {constructs : List NamedConstruct} :
    shortest? constructs = none ↔ constructs = [] := by
  cases constructs with
  | nil => simp [shortest?]
  | cons first rest =>
    rw [shortest?]
    split
    · split <;> simp
    · simp

namespace ConstructIndex

variable {index : ConstructIndex}

/-- A node stands in a class of a name if some class of that name is around it. -/
theorem isInside_singleton {name : Text} {n : Located} :
    index.isInside [name] n = true ↔
      ∃ c ∈ index.classes, c.name = name ∧ c.node.encloses n = true := by
  have hfilter : (∃ c ∈ index.classes, c.name = name ∧ c.node.encloses n = true) ↔
      (index.classes.filter fun c => c.name = name && c.node.encloses n) ≠ [] := by
    simp [List.filter_eq_nil_iff]
  rw [hfilter, ne_eq, ← shortest?_eq_none_iff]
  simp only [isInside, List.reverse_singleton, isInsideInner, enclosingClassNamed?]
  cases shortest? (index.classes.filter fun c => c.name = name && c.node.encloses n) <;> simp

/-! ### What a path names -/

/-- Whether a path names a node: a block by what it calls and, if there is a label, by that; a
class, method or property by its name, or a block by its label; and a method or property in
classes. -/
def Names (index : ConstructIndex) : SemanticPath → Located → Prop
  | .block callee label, n =>
    ∃ b ∈ index.blocks, b.node = n ∧ b.callee = callee ∧ (label = none ∨ b.label = label)
  | .name own, n =>
    (∃ c ∈ index.classes ++ (index.methods ++ index.properties), c.node = n ∧ c.name = own) ∨
      ∃ b ∈ index.blocks, b.node = n ∧ b.label = some own
  | .member containers own, n =>
    ∃ c ∈ index.methods ++ index.properties,
      c.node = n ∧ c.name = own ∧ index.isInside containers n = true

/-- Every match of a path is about a node that the path names. -/
theorem exists_names_of_mem_select {path : SemanticPath} {m : SemanticMatch}
    (h : m ∈ index.select path) :
    ∃ n kind name container description,
      index.Names path n ∧ m = index.matchOf n kind name container description := by
  cases path with
  | block callee label =>
    obtain ⟨b, hb, rfl⟩ := List.mem_map.1 h
    obtain ⟨hb, hfits⟩ := List.mem_filter.1 hb
    have hnamed : b.callee = callee ∧ (label = none ∨ b.label = label) := by
      simpa [BlockConstruct.fits] using hfits
    exact ⟨_, _, _, _, _, ⟨b, hb, rfl, hnamed⟩, rfl⟩
  | name own =>
    simp only [select, List.mem_append, List.mem_map, List.mem_filter, decide_eq_true_eq] at h
    rcases h with ((⟨c, ⟨hc, hown⟩, rfl⟩ | ⟨c, ⟨hc, hown⟩, rfl⟩) | ⟨c, ⟨hc, hown⟩, rfl⟩) |
      ⟨b, ⟨hb, hlabel⟩, rfl⟩
    · exact ⟨_, _, _, _, _, .inl ⟨c, by simp [hc], rfl, hown⟩, rfl⟩
    · exact ⟨_, _, _, _, _, .inl ⟨c, by simp [hc], rfl, hown⟩, rfl⟩
    · exact ⟨_, _, _, _, _, .inl ⟨c, by simp [hc], rfl, hown⟩, rfl⟩
    · exact ⟨_, _, _, _, _, .inr ⟨b, hb, rfl, hlabel⟩, rfl⟩
  | member containers own =>
    simp only [select, List.mem_append, List.mem_map, List.mem_filter, Bool.and_eq_true,
      decide_eq_true_eq] at h
    rcases h with ⟨c, ⟨hc, hown, hinside⟩, rfl⟩ | ⟨c, ⟨hc, hown, hinside⟩, rfl⟩
    · exact ⟨_, _, _, _, _, ⟨c, by simp [hc], rfl, hown, hinside⟩, rfl⟩
    · exact ⟨_, _, _, _, _, ⟨c, by simp [hc], rfl, hown, hinside⟩, rfl⟩

/-- Every node that a path names has a match. -/
theorem exists_mem_select_of_names {path : SemanticPath} {n : Located} (h : index.Names path n) :
    ∃ m ∈ index.select path, m.path = index.tree.pathOf n := by
  cases path with
  | block callee label =>
    obtain ⟨b, hb, rfl, hcallee, hlabel⟩ := h
    refine ⟨index.blockMatch b, List.mem_map_of_mem (List.mem_filter.2 ⟨hb, ?_⟩), rfl⟩
    simpa [BlockConstruct.fits, hcallee] using hlabel
  | name own =>
    simp only [Names, List.mem_append] at h
    simp only [select, List.mem_append, List.mem_map, List.mem_filter, decide_eq_true_eq]
    rcases h with ⟨c, hc | hc | hc, rfl, hown⟩ | ⟨b, hb, rfl, hlabel⟩
    · exact ⟨_, .inl (.inl (.inl ⟨c, ⟨hc, hown⟩, rfl⟩)), rfl⟩
    · exact ⟨_, .inl (.inl (.inr ⟨c, ⟨hc, hown⟩, rfl⟩)), rfl⟩
    · exact ⟨_, .inl (.inr ⟨c, ⟨hc, hown⟩, rfl⟩), rfl⟩
    · exact ⟨_, .inr ⟨b, ⟨hb, hlabel⟩, rfl⟩, rfl⟩
  | member containers own =>
    simp only [Names, List.mem_append] at h
    simp only [select, List.mem_append, List.mem_map, List.mem_filter, Bool.and_eq_true,
      decide_eq_true_eq]
    obtain ⟨c, hc | hc, rfl, hown, hinside⟩ := h
    · exact ⟨_, .inl ⟨c, ⟨hc, hown, hinside⟩, rfl⟩, rfl⟩
    · exact ⟨_, .inr ⟨c, ⟨hc, hown, hinside⟩, rfl⟩, rfl⟩

theorem mem_select_of_mem_resolve {path : SemanticPath} {m : SemanticMatch}
    (h : m ∈ index.resolve path) : m ∈ index.select path :=
  mem_firstOfEach (List.mem_mergeSort.1 h)

/-- No node is lost where the matches of a path are ordered and repeated ones are dropped. -/
theorem exists_mem_resolve_of_mem_select {path : SemanticPath} {m : SemanticMatch}
    (h : m ∈ index.select path) : ∃ m' ∈ index.resolve path, m'.path = m.path := by
  let key (m : SemanticMatch) : Nat × Nat × StructuralPath := (m.start, m.stop, m.path)
  obtain ⟨m', hm', hkey⟩ : ∃ m' ∈ firstOfEach key (index.select path), key m' = key m :=
    exists_mem_firstOfEach h
  simp only [key, Prod.mk.injEq] at hkey
  exact ⟨m', List.mem_mergeSort.2 hm', hkey.2.2⟩

/-- Looking a path up finds the nodes that it names, and no others. -/
theorem exists_mem_resolve_iff {path : SemanticPath} {p : StructuralPath} :
    (∃ m ∈ index.resolve path, m.path = p) ↔
      ∃ n, index.Names path n ∧ index.tree.pathOf n = p := by
  constructor
  · rintro ⟨m, hm, rfl⟩
    obtain ⟨n, kind, name, container, description, hn, rfl⟩ :=
      exists_names_of_mem_select (mem_select_of_mem_resolve hm)
    exact ⟨n, hn, rfl⟩
  · rintro ⟨n, hn, rfl⟩
    obtain ⟨m, hm, hpath⟩ := exists_mem_select_of_names hn
    obtain ⟨m', hm', hsame⟩ := exists_mem_resolve_of_mem_select hm
    exact ⟨m', hm', hsame.trans hpath⟩

/-! ### What is listed -/

/-- A method or property is named by the path it is listed under, in a class or in none. -/
theorem names_memberPath {c : NamedConstruct} (h : c ∈ index.methods ++ index.properties) :
    index.Names (index.memberPath c) c.node := by
  rw [memberPath]
  split
  · rename_i outer houter
    have hmem := List.mem_filter.1 (mem_of_shortest? houter)
    exact ⟨c, h, rfl, rfl, isInside_singleton.2 ⟨outer, hmem.1, rfl, hmem.2⟩⟩
  · exact .inl ⟨c, List.mem_append_right _ h, rfl, rfl⟩

/-- Every construct is named by the path it is listed under. -/
theorem names_of_mem_listing {n : Located} {p : SemanticPath} (h : (n, p) ∈ index.listing) :
    index.Names p n := by
  simp only [listing, List.mem_mergeSort, List.mem_append, List.mem_map, List.mem_filter,
    Prod.mk.injEq] at h
  rcases h with ((⟨c, hc, rfl, rfl⟩ | ⟨c, hc, rfl, rfl⟩) | ⟨c, ⟨hc, -⟩, rfl, rfl⟩) |
    ⟨b, hb, rfl, rfl⟩
  · exact .inl ⟨c, by simp [hc], rfl, rfl⟩
  · exact names_memberPath (by simp [hc])
  · exact names_memberPath (by simp [hc])
  · exact ⟨b, hb, rfl, rfl, .inr rfl⟩

end ConstructIndex

/-! ### Trees -/

namespace SyntaxTree

variable {t : SyntaxTree}

/-- Whatever a path names is a node of the tree. -/
theorem mem_nodes_of_names (hqueries : t.queries.FindsNodes) {path : SemanticPath} {n : Located}
    (h : (ConstructIndex.build t).Names path n) : n ∈ t.nodes := by
  cases path with
  | block callee label =>
    obtain ⟨b, hb, rfl, -⟩ := h
    exact ConstructIndex.mem_nodes_of_mem_blocks hqueries hb
  | name own =>
    rcases h with ⟨c, hc, rfl, -⟩ | ⟨b, hb, rfl, -⟩
    · exact ConstructIndex.mem_nodes_of_mem_build hqueries hc
    · exact ConstructIndex.mem_nodes_of_mem_blocks hqueries hb
  | member containers own =>
    obtain ⟨c, hc, rfl, -⟩ := h
    exact ConstructIndex.mem_nodes_of_mem_build hqueries (List.mem_append_right _ hc)

/-- A match tells the path, the range and the text of a node of the tree. -/
theorem exists_node_of_mem_findSemantic (hqueries : t.queries.FindsNodes) {path : Text}
    {m : SemanticMatch} (h : m ∈ t.findSemantic path) :
    ∃ n ∈ t.nodes, m.path = t.pathOf n ∧ m.start = n.start ∧ m.stop = n.stop ∧
      m.text = t.textOf n.node := by
  rw [findSemantic] at h
  split at h
  · obtain ⟨n, kind, name, container, description, hnames, rfl⟩ :=
      ConstructIndex.exists_names_of_mem_select (ConstructIndex.mem_select_of_mem_resolve h)
    exact ⟨n, mem_nodes_of_names hqueries hnames, rfl, rfl, rfl, rfl⟩
  · cases h

/-- A text finds a node of the tree if it reads as a path that names the node. -/
theorem exists_mem_findSemantic_iff (hqueries : t.queries.FindsNodes) {path : Text} {n : Located}
    (hn : n ∈ t.nodes) :
    (∃ m ∈ t.findSemantic path, m.path = t.pathOf n) ↔
      ∃ q, SemanticPath.parse? path = some q ∧ (ConstructIndex.build t).Names q n := by
  rw [findSemantic]
  cases SemanticPath.parse? path with
  | none => simp
  | some parsed =>
    simp only [ConstructIndex.exists_mem_resolve_iff, Option.some.injEq, exists_eq_left']
    constructor
    · rintro ⟨n', hnames, hpath⟩
      obtain rfl := pathOf_injective (mem_nodes_of_names hqueries hnames) hn hpath
      exact hnames
    · intro hnames
      exact ⟨n, hnames, rfl⟩

/-- **A listed path finds its construct exactly if it reads back as itself**, or happens to read as
another path that names the construct as well.  The latter takes a coincidence, such as a class
`A.B` in a class `B` in a class `A`.  Of the library that runs the queries nothing is asked but that
it finds nodes of the tree. -/
theorem exists_mem_findSemantic_listed_iff (hqueries : t.queries.FindsNodes) {n : Located}
    {p : SemanticPath} (h : (n, p) ∈ (ConstructIndex.build t).listing) :
    (∃ m ∈ t.findSemantic p.render, m.path = t.pathOf n) ↔
      p.IsReadable ∨ ∃ q, q ≠ p ∧ SemanticPath.parse? p.render = some q ∧
        (ConstructIndex.build t).Names q n := by
  have hnames := ConstructIndex.names_of_mem_listing h
  rw [exists_mem_findSemantic_iff hqueries (mem_nodes_of_names hqueries hnames),
    ← SemanticPath.parse?_render_iff]
  constructor
  · rintro ⟨q, hread, hq⟩
    by_cases hsame : q = p
    · exact .inl (hsame ▸ hread)
    · exact .inr ⟨q, hsame, hread, hq⟩
  · rintro (hread | ⟨q, -, hread, hq⟩)
    · exact ⟨p, hread, hnames⟩
    · exact ⟨q, hread, hq⟩

/-- The node of a function `fun name() {}` that starts at some place, with the length of its
name. -/
def functionNode (start length : Nat) : Node :=
  let stop := start + 4 + length
  let token (type : String) (start stop : Nat) : Node :=
    .mk ⟨type, false, false, false, false, start, stop, none⟩ []
  let node (type : String) (start stop : Nat) (children : List Node) : Node :=
    .mk ⟨type, true, false, false, false, start, stop, none⟩ children
  node "function_declaration" start (stop + 5)
    [token "fun" start (start + 3), node "simple_identifier" (start + 4) stop [],
      node "function_value_parameters" stop (stop + 2)
        [token "(" stop (stop + 1), token ")" (stop + 1) (stop + 2)],
      node "function_body" (stop + 3) (stop + 5)
        [token "\x7b" (stop + 3) (stop + 4), token "\x7d" (stop + 4) (stop + 5)]]

/-- A pack that finds such functions. -/
def functionPack : LanguagePack :=
  (LanguagePack.plain "kotlin" .kotlin).withQuery .methods
    "(function_declaration (simple_identifier) @name) @method".toList

/-- The tree of a function with some name and a comment before it. -/
def ofFunction (name : Text) : SyntaxTree where
  root :=
    .mk ⟨"source_file", true, false, false, false, 0, 16 + Text.byteLength name, none⟩
      [.mk ⟨"line_comment", true, false, false, true, 0, 5, none⟩ [],
        functionNode 6 (Text.byteLength name)]
  broken := false
  source := "// é\nfun ".toList ++ name ++ "() \x7b\x7d\n".toList
  pack := functionPack

/-- A function with a plain name is found by the path it is listed under. -/
theorem exists_mem_findSemantic_plainName :
    ∃ n, (n, .name "f".toList) ∈ (ConstructIndex.build (ofFunction "f".toList)).listing ∧
      n.address = [1] ∧
      ∃ m ∈ (ofFunction "f".toList).findSemantic "f".toList,
        m.path = (ofFunction "f".toList).pathOf n := by
  have hlisted : ([1], SemanticPath.name "f".toList) ∈
      (ConstructIndex.build (ofFunction "f".toList)).listing.map
        fun entry => (entry.1.address, entry.2) := by decide +kernel
  obtain ⟨⟨n, p⟩, hn, heq⟩ := List.mem_map.1 hlisted
  obtain ⟨haddress, rfl⟩ := Prod.mk.inj heq
  refine ⟨n, hn, haddress,
    (exists_mem_findSemantic_listed_iff QueryLibrary.findsNodes_basic hn).2 (.inl ?_)⟩
  exact SemanticPath.parse?_render_iff.1 (by decide +kernel)

/-- A quoted name may hold a dot. The function is then listed under a path that finds nothing. -/
theorem findSemantic_listed_quotedName :
    "`a.b`".toList ∈ (ofFunction "`a.b`".toList).semanticPaths ∧
      (ofFunction "`a.b`".toList).findSemantic "`a.b`".toList = [] := by
  decide +kernel

end SyntaxTree

end SyntaxEdit
