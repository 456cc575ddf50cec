/-
Nodes and their structural paths determine each other.

The path of a node is built on the way down to its address; it is the path of the parent with one
more segment (`pathOf_of_parent?`).

* `at?_append_eq_some_iff` — an address can be followed in two parts;
* `resolve?_pathOf` — the path of a node names that node, not only one with the same range;
* `mem_nodes_of_resolve?`, `pathOf_of_resolve?` — whatever a path names is a node of the tree, and
  has that path;
* `pathOf_isReadable_iff` — the path of a node is readable exactly if the types on the way to the
  node are;
* `resolve?_pathOf_bijective` — all of this in one, for paths as written too.
-/
import SyntaxEdit.Proofs.StructuralCodec
import SyntaxEdit.Tree.Addressing

namespace SyntaxEdit

/-! ### Following addresses -/

namespace Node

@[simp] theorem at?_nil (n : Node) : n.at? [] = some n := by
  rw [at?]

theorem at?_cons_eq_some_iff {n m : Node} {i : Nat} {rest : Address} :
    n.at? (i :: rest) = some m ↔
      ∃ child, n.children[i]? = some child ∧ child.at? rest = some m := by
  rw [at?]
  cases n.children[i]? <;> simp

/-- An address can be followed in two parts. -/
theorem at?_append_eq_some_iff {n m : Node} {front back : Address} :
    n.at? (front ++ back) = some m ↔
      ∃ middle, n.at? front = some middle ∧ middle.at? back = some m := by
  induction front generalizing n with
  | nil => simp
  | cons i front ih =>
    simp only [List.cons_append, at?_cons_eq_some_iff, ih]
    constructor
    · rintro ⟨child, hchild, middle, hfront, hback⟩
      exact ⟨middle, ⟨child, hchild, hfront⟩, hback⟩
    · rintro ⟨middle, ⟨child, hchild, hfront⟩, hback⟩
      exact ⟨child, hchild, middle, hfront, hback⟩

theorem at?_singleton {n m : Node} {i : Nat} : n.at? [i] = some m ↔ n.children[i]? = some m := by
  simp [at?_cons_eq_some_iff]

end Node

namespace Located

variable {n parent : Located} {root : Node} {i : Nat}

theorem getElem?_children_eq_some_iff :
    parent.children[i]? = some n ↔
      n.address = parent.address ++ [i] ∧ parent.node.children[i]? = some n.node := by
  rw [children, List.getElem?_map, List.getElem?_zipIdx]
  cases h : parent.node.children[i]? with
  | none => simp
  | some child =>
    obtain ⟨address, node⟩ := n
    simp [eq_comm]

/-- The children of a node in a tree are nodes in it, each at its own address. -/
theorem at?_of_mem_children (hparent : root.at? parent.address = some parent.node)
    (h : n ∈ parent.children) : root.at? n.address = some n.node := by
  obtain ⟨i, hi⟩ := List.mem_iff_getElem?.1 h
  obtain ⟨haddress, hchild⟩ := getElem?_children_eq_some_iff.1 hi
  rw [haddress, Node.at?_append_eq_some_iff]
  exact ⟨parent.node, hparent, Node.at?_singleton.2 hchild⟩

end Located

/-! ### Segments along an address -/

theorem segmentsBelow_cons {n child : Node} {i : Nat} (h : n.children[i]? = some child)
    (rest : Address) :
    segmentsBelow n (i :: rest) = ⟨child.type, i⟩ :: segmentsBelow child rest := by
  rw [segmentsBelow, h]

/-- The segments of an address are those of a front part, and those below from there on. -/
theorem segmentsBelow_append {n middle : Node} {front : Address} (back : Address)
    (h : n.at? front = some middle) :
    segmentsBelow n (front ++ back) = segmentsBelow n front ++ segmentsBelow middle back := by
  induction front generalizing n with
  | nil =>
    obtain rfl : n = middle := by simpa using h
    rfl
  | cons i front ih =>
    obtain ⟨child, hchild, hfront⟩ := Node.at?_cons_eq_some_iff.1 h
    rw [List.cons_append, segmentsBelow_cons hchild, segmentsBelow_cons hchild, ih hfront,
      List.cons_append]

/-- Each segment is that of a node on the way, with its position among its siblings. -/
theorem mem_segmentsBelow_iff {n : Node} {address : Address} {s : PathSegment} :
    s ∈ segmentsBelow n address ↔
      ∃ front i m, front ++ [i] <+: address ∧ n.at? (front ++ [i]) = some m ∧
        s = ⟨m.type, i⟩ := by
  -- The address is the way down, one segment for each step.
  induction address generalizing n with
  | nil => simp [segmentsBelow]
  | cons j rest ih =>
    constructor
    · intro h
      rw [segmentsBelow] at h
      split at h
      · rename_i child hchild
        rcases List.mem_cons.1 h with rfl | h
        · exact ⟨[], j, child, by simp, by simpa [Node.at?_singleton] using hchild, rfl⟩
        · obtain ⟨front, i, m, hway, hm, rfl⟩ := ih.1 h
          exact ⟨j :: front, i, m, by simpa using hway,
            Node.at?_cons_eq_some_iff.2 ⟨child, hchild, hm⟩, rfl⟩
      · cases h
    · rintro ⟨front, i, m, hway, hm, rfl⟩
      cases front with
      | nil =>
        obtain ⟨rfl, -⟩ := List.cons_prefix_cons.1 hway
        rw [segmentsBelow_cons (Node.at?_singleton.1 hm)]
        exact List.mem_cons_self
      | cons k front =>
        obtain ⟨rfl, hbelow⟩ := List.cons_prefix_cons.1 hway
        obtain ⟨child, hchild, hm⟩ := Node.at?_cons_eq_some_iff.1 hm
        rw [segmentsBelow_cons hchild]
        exact List.mem_cons_of_mem _ (ih.2 ⟨front, i, m, hbelow, hm, rfl⟩)

/-! ### Following segments -/

theorem followSegments?_segmentsBelow {n m : Node} {address : Address}
    (h : n.at? address = some m) :
    followSegments? n (segmentsBelow n address) = some ⟨address, m⟩ := by
  induction address generalizing n with
  | nil =>
    obtain rfl : n = m := by simpa using h
    rfl
  | cons i rest ih =>
    obtain ⟨child, hchild, hrest⟩ := Node.at?_cons_eq_some_iff.1 h
    rw [segmentsBelow_cons hchild, followSegments?]
    simp only [hchild, ih hrest, if_true]
    rfl

/-- Segments lead to a node only if they are those of its address. -/
theorem of_followSegments? {n : Node} {segments : List PathSegment} {m : Located}
    (h : followSegments? n segments = some m) :
    n.at? m.address = some m.node ∧ segmentsBelow n m.address = segments := by
  induction segments generalizing n m with
  | nil =>
    obtain rfl : ⟨[], n⟩ = m := by simpa [followSegments?] using h
    exact ⟨Node.at?_nil n, rfl⟩
  | cons s rest ih =>
    rw [followSegments?] at h
    split at h
    · rename_i child hchild
      split at h
      · rename_i htype
        obtain ⟨below, hbelow, rfl⟩ := Option.map_eq_some_iff.1 h
        obtain ⟨hat, hsegments⟩ := ih hbelow
        refine ⟨Node.at?_cons_eq_some_iff.2 ⟨child, hchild, hat⟩, ?_⟩
        -- The segment of this step is the type and the place of the child, which were compared.
        show segmentsBelow n (s.index :: below.address) = s :: rest
        rw [segmentsBelow_cons hchild, hsegments, htype]
      · cases h
    · cases h

namespace SyntaxTree

variable {t : SyntaxTree} {m n : Located}

theorem mem_nodes_iff : n ∈ t.nodes ↔ t.root.at? n.address = some n.node := by
  rw [nodes_eq_preorder, mem_preorder_iff]

theorem rootNode_mem_nodes (t : SyntaxTree) : t.rootNode ∈ t.nodes :=
  mem_nodes_iff.2 (Node.at?_nil t.root)

/-- Two nodes of a tree at one address are one node. -/
theorem eq_of_address_eq (hm : m ∈ t.nodes) (hn : n ∈ t.nodes) (h : m.address = n.address) :
    m = n := by
  have hnode : m.node = n.node := by
    have hat := mem_nodes_iff.1 hm
    rw [h, mem_nodes_iff.1 hn] at hat
    exact (Option.some.inj hat).symm
  cases m
  cases n
  exact congr (congrArg Located.mk h) hnode

/-! ### Paths of nodes -/

theorem resolve?_pathOf (h : n ∈ t.nodes) : t.resolve? (t.pathOf n) = some n := by
  rw [resolve?, pathOf, pathTo]
  simp [followSegments?_segmentsBelow (mem_nodes_iff.1 h)]

theorem of_resolve? {p : StructuralPath} (h : t.resolve? p = some n) :
    n ∈ t.nodes ∧ t.pathOf n = p := by
  obtain ⟨segments⟩ := p
  rw [resolve?] at h
  split at h
  · cases h
  · rename_i first rest hsegments
    obtain rfl : segments = first :: rest := hsegments
    split at h
    · rename_i hfirst
      obtain ⟨hat, hrest⟩ := of_followSegments? h
      refine ⟨mem_nodes_iff.2 hat, ?_⟩
      rw [pathOf, pathTo, hrest, ← hfirst.1, ← hfirst.2]
    · cases h

theorem mem_nodes_of_resolve? {p : StructuralPath} (h : t.resolve? p = some n) : n ∈ t.nodes :=
  (of_resolve? h).1

theorem mem_nodes_of_resolveText? {path : Text} (h : t.resolveText? path = some n) :
    n ∈ t.nodes := by
  simp only [resolveText?, bind, Option.bind_eq_some_iff] at h
  obtain ⟨p, -, hp⟩ := h
  exact mem_nodes_of_resolve? hp

theorem pathOf_of_resolve? {p : StructuralPath} (h : t.resolve? p = some n) : t.pathOf n = p :=
  (of_resolve? h).2

/-- Distinct nodes have distinct paths. -/
theorem pathOf_injective (hm : m ∈ t.nodes) (hn : n ∈ t.nodes) (h : t.pathOf m = t.pathOf n) :
    m = n := by
  have hnode := resolve?_pathOf hm
  rw [h, resolve?_pathOf hn] at hnode
  exact (Option.some.inj hnode).symm

/-! ### Parents -/

theorem parent?_eq_some_iff {parent : Located} :
    t.parent? n = some parent ↔
      ∃ i, n.address = parent.address ++ [i] ∧ t.root.at? parent.address = some parent.node := by
  rw [parent?]
  split
  · rename_i hroot
    simp [hroot]
  · rename_i hne
    -- Below the root an address has a last step, and the parent is reached without it.
    obtain ⟨front, i, haddress⟩ := (List.eq_nil_or_concat n.address).resolve_left hne
    rw [List.concat_eq_append] at haddress
    simp only [haddress, List.dropLast_concat, Option.map_eq_some_iff]
    constructor
    · rintro ⟨node, hnode, rfl⟩
      exact ⟨i, rfl, hnode⟩
    · rintro ⟨j, hplace, hnode⟩
      obtain ⟨rfl, -⟩ := List.append_inj' hplace rfl
      exact ⟨parent.node, hnode, rfl⟩

theorem mem_nodes_of_parent? {parent : Located} (h : t.parent? n = some parent) :
    parent ∈ t.nodes := by
  obtain ⟨i, -, hnode⟩ := parent?_eq_some_iff.1 h
  exact mem_nodes_iff.2 hnode

theorem mem_nodes_of_child {parent : Located} {i : Nat} (hp : parent ∈ t.nodes)
    (h : parent.children[i]? = some n) : n ∈ t.nodes :=
  mem_nodes_iff.2 (Located.at?_of_mem_children (mem_nodes_iff.1 hp) (List.mem_of_getElem? h))

/-- A node is the child of its parent at the last position of its address. -/
theorem exists_getElem?_of_parent? {parent : Located} (hn : n ∈ t.nodes)
    (h : t.parent? n = some parent) :
    ∃ i, n.address = parent.address ++ [i] ∧ parent.children[i]? = some n := by
  obtain ⟨i, haddress, hparent⟩ := parent?_eq_some_iff.1 h
  have hat := mem_nodes_iff.1 hn
  rw [haddress, Node.at?_append_eq_some_iff] at hat
  obtain ⟨middle, hmiddle, hchild⟩ := hat
  obtain rfl : parent.node = middle := Option.some.inj (hparent.symm.trans hmiddle)
  refine ⟨i, haddress, Located.getElem?_children_eq_some_iff.2 ⟨haddress, ?_⟩⟩
  exact Node.at?_singleton.1 hchild

/-- The path of a node is that of its parent, with the type of the node and its position among all
children of the parent added. -/
theorem pathOf_of_parent? {parent : Located} (hn : n ∈ t.nodes) (h : t.parent? n = some parent) :
    ∃ i, parent.children[i]? = some n ∧
      t.pathOf n = ⟨(t.pathOf parent).segments ++ [⟨n.type, i⟩]⟩ := by
  obtain ⟨i, haddress, hchild⟩ := exists_getElem?_of_parent? hn h
  refine ⟨i, hchild, ?_⟩
  rw [pathOf, pathTo, haddress,
    segmentsBelow_append [i] (mem_nodes_iff.1 (mem_nodes_of_parent? h)),
    segmentsBelow_cons (Located.getElem?_children_eq_some_iff.1 hchild).2]
  rfl

/-! ### Readable paths -/

/-- Nothing on the way to a node keeps its path from being read back. Positions are indices, so
they are within bounds. -/
structure HasReadablePath (t : SyntaxTree) (n : Located) : Prop where
  type_ne_empty : ∀ m ∈ t.nodes, m.address <+: n.address → m.type ≠ ""
  type_free : ∀ m ∈ t.nodes, m.address <+: n.address → ¬ segmentSeparator <:+: m.type.toList
  root : ∀ c ∈ t.root.type.toList.head?, isBlank c = false
  index_le : ∀ i ∈ n.address, i ≤ maxIndex

/-- A segment of the path of a node is that of a node on the way, and the other way round. -/
theorem mem_segments_pathOf_iff {s : PathSegment} :
    s ∈ (t.pathOf n).segments ↔
      ∃ m ∈ t.nodes, m.address <+: n.address ∧ s = ⟨m.type, m.address.getLast?.getD 0⟩ := by
  rw [pathOf, pathTo, List.mem_cons, mem_segmentsBelow_iff]
  constructor
  · rintro (rfl | ⟨front, i, m, hway, hm, rfl⟩)
    · exact ⟨t.rootNode, rootNode_mem_nodes t, List.nil_prefix, rfl⟩
    · exact ⟨⟨front ++ [i], m⟩, mem_nodes_iff.2 hm, hway, by simp [Located.type]⟩
  · rintro ⟨m, hm, hway, rfl⟩
    -- The first segment is that of the root, which no step leads to.
    rcases List.eq_nil_or_concat m.address with hroot | ⟨front, i, haddress⟩
    · left
      obtain rfl := eq_of_address_eq hm (rootNode_mem_nodes t) hroot
      rfl
    · right
      rw [List.concat_eq_append] at haddress
      exact ⟨front, i, m.node, haddress ▸ hway, haddress ▸ mem_nodes_iff.1 hm,
        by simp [haddress, Located.type]⟩

/-- The index of a node among its siblings is a position of its address. -/
theorem getLast?_address_le (h : t.HasReadablePath n) (hway : m.address <+: n.address) :
    m.address.getLast?.getD 0 ≤ maxIndex := by
  cases hlast : m.address.getLast? with
  | none => exact Nat.zero_le _
  | some i => exact h.index_le i (hway.subset (List.mem_of_getLast? hlast))

theorem exists_mem_nodes_of_mem_address (hn : n ∈ t.nodes) {i : Nat} (hi : i ∈ n.address) :
    ∃ m ∈ t.nodes, m.address <+: n.address ∧ m.address.getLast? = some i := by
  obtain ⟨front, back, haddress⟩ := List.append_of_mem hi
  rw [List.append_cons] at haddress
  have hat := mem_nodes_iff.1 hn
  rw [haddress, Node.at?_append_eq_some_iff] at hat
  obtain ⟨middle, hmiddle, -⟩ := hat
  exact ⟨⟨front ++ [i], middle⟩, mem_nodes_iff.2 hmiddle, ⟨back, haddress.symm⟩, by simp⟩

/-- The path of a node is readable exactly if nothing on the way to the node is in the way. -/
theorem pathOf_isReadable_iff (hn : n ∈ t.nodes) :
    (t.pathOf n).IsReadable ↔ t.HasReadablePath n := by
  constructor
  · intro h
    -- Each node on the way has a segment of its own in the path.
    have hsegment : ∀ m ∈ t.nodes, m.address <+: n.address →
        PathSegment.IsReadable ⟨m.type, m.address.getLast?.getD 0⟩ :=
      fun m hm hway => h.segment _ (mem_segments_pathOf_iff.2 ⟨m, hm, hway, rfl⟩)
    refine ⟨fun m hm hway => (hsegment m hm hway).type_ne_empty,
      fun m hm hway => (hsegment m hm hway).type_free, h.first _ rfl, fun i hi => ?_⟩
    obtain ⟨m, hm, hway, hlast⟩ := exists_mem_nodes_of_mem_address hn hi
    have hindex := (hsegment m hm hway).index_le
    rwa [hlast] at hindex
  · intro h
    refine ⟨List.cons_ne_nil _ _, fun s hs => ?_, fun s hs c hc => ?_⟩
    · obtain ⟨m, hm, hway, rfl⟩ := mem_segments_pathOf_iff.1 hs
      exact ⟨h.type_ne_empty m hm hway, h.type_free m hm hway, getLast?_address_le h hway⟩
    · obtain rfl : ⟨t.root.type, 0⟩ = s := Option.some.inj hs
      exact h.root c hc

/-- A node is found again by its path as written exactly if that path is readable: an unreadable
path is read as none, or as the path of another node. -/
theorem resolveText?_render_pathOf_iff (hn : n ∈ t.nodes) :
    t.resolveText? (t.pathOf n).render = some n ↔ t.HasReadablePath n := by
  rw [← pathOf_isReadable_iff hn]
  constructor
  · intro h
    simp only [resolveText?, bind, Option.bind_eq_some_iff] at h
    obtain ⟨p, hparse, hp⟩ := h
    rw [pathOf_of_resolve? hp]
    exact StructuralPath.isReadable_of_parse? hparse
  · intro h
    simp only [resolveText?, StructuralPath.parse?_render h, bind, Option.bind_some,
      resolve?_pathOf hn]

/-- **Nodes and structural paths determine each other.**  The path of every node names exactly that
node, every path that names a node is the path of that node, and so distinct nodes have distinct
paths.  A path is that of the parent with one more segment.  As written it names its node exactly
if every type on the way is a non-empty text without a separator, the first of them not starting
with white space. -/
theorem resolve?_pathOf_bijective (t : SyntaxTree) :
    (∀ n ∈ t.nodes, t.resolve? (t.pathOf n) = some n) ∧
      (∀ p n, t.resolve? p = some n → n ∈ t.nodes ∧ t.pathOf n = p) ∧
      (∀ m ∈ t.nodes, ∀ n ∈ t.nodes, t.pathOf m = t.pathOf n → m = n) ∧
      (∀ n ∈ t.nodes, ∀ parent, t.parent? n = some parent →
        ∃ i, parent.children[i]? = some n ∧
          t.pathOf n = ⟨(t.pathOf parent).segments ++ [⟨n.type, i⟩]⟩) ∧
      ∀ n ∈ t.nodes, t.resolveText? (t.pathOf n).render = some n ↔ t.HasReadablePath n :=
  ⟨fun _ => resolve?_pathOf, fun _ _ => of_resolve?, fun _ hm _ hn => pathOf_injective hm hn,
    fun _ hn _ => pathOf_of_parent? hn, fun _ => resolveText?_render_pathOf_iff⟩

/-- The tree of `[/]`: a list with an only child on the same bytes, and tokens whose types are the
characters that delimit segments. -/
def ofBracketTokens : SyntaxTree where
  root := .mk ⟨"list", true, false, false, false, 0, 3, none⟩
    [.mk ⟨"array", true, false, false, false, 0, 3, none⟩
      [.mk ⟨"[", false, false, false, false, 0, 1, none⟩ [],
        .mk ⟨"/", false, false, false, false, 1, 2, none⟩ [],
        .mk ⟨"]", false, false, false, false, 2, 3, none⟩ []]]
  broken := false
  source := "[/]".toList
  pack := .plain "list" .javascript

/-- The closing token of that tree is found by its path, the only child by another path than its
parent. -/
theorem resolve?_pathOf_bracketTokens :
    ∃ array ∈ ofBracketTokens.nodes, ∃ closing ∈ ofBracketTokens.nodes,
      array.type = "array" ∧ closing.type = "]" ∧
      ofBracketTokens.pathOf array ≠ ofBracketTokens.pathOf ofBracketTokens.rootNode ∧
      ofBracketTokens.resolve? (ofBracketTokens.pathOf closing) = some closing ∧
      ofBracketTokens.resolveText? (ofBracketTokens.pathOf closing).render = some closing := by
  obtain ⟨hresolve, -, hinjective, -, htext⟩ := resolve?_pathOf_bijective ofBracketTokens
  have harray : (⟨[0], ofBracketTokens.root.children[0]⟩ : Located) ∈ ofBracketTokens.nodes :=
    mem_nodes_iff.2 rfl
  have hclosing : (⟨[0, 2], .mk ⟨"]", false, false, false, false, 2, 3, none⟩ []⟩ : Located) ∈
      ofBracketTokens.nodes := mem_nodes_iff.2 rfl
  have hfirst : ∀ c ∈ ofBracketTokens.root.type.toList.head?, isBlank c = false := by
    intro c hc
    obtain rfl : 'l' = c := Option.some.inj hc
    decide
  refine ⟨_, harray, _, hclosing, rfl, rfl, fun h => ?_, hresolve _ hclosing,
    (htext _ hclosing).2 ⟨by decide, by decide, hfirst, by decide⟩⟩
  have hroot := hinjective _ harray _ (rootNode_mem_nodes _) h
  exact absurd (congrArg Located.address hroot) (by decide)

end SyntaxTree

end SyntaxEdit
