/-
Trees whose nodes fit the source, and trees whose types can be written in paths.

* `SyntaxTree.HasSlices` — every node has a slice of the source;
* `SyntaxTree.WellFormed` — besides, children lie in their parent and siblings follow each other;
* `exists_source_eq` — the source around a node;
* `stop_le_start_of_nextSibling?` — a node ends before the next of its siblings starts;
* `SyntaxTree.HasReadableTypes`, `resolveText?_render_pathOf` — with types free of what delimits
  segments, every node is found by its path as written.
-/
import SyntaxEdit.Proofs.NodePaths

namespace SyntaxEdit

namespace SyntaxTree

/-! ### Ranges -/

/-- The range of every node is a slice of the source: its offsets are in order, inside the source
and between characters. -/
def HasSlices (t : SyntaxTree) : Prop :=
  ∀ n ∈ t.nodes, (Text.slice? t.source n.start n.stop).isSome = true

/-- The range of every node lies in that of its parent. -/
def HasNestedChildren (t : SyntaxTree) : Prop :=
  ∀ n ∈ t.nodes, ∀ child ∈ n.children, n.start ≤ child.start ∧ child.stop ≤ n.stop

/-- The ranges of siblings are disjoint and in the order of the siblings. -/
def HasOrderedSiblings (t : SyntaxTree) : Prop :=
  ∀ n ∈ t.nodes, n.children.Pairwise fun first second => first.stop ≤ second.start

instance (t : SyntaxTree) : Decidable t.HasSlices :=
  inferInstanceAs (Decidable (∀ n ∈ t.nodes, _))

instance (t : SyntaxTree) : Decidable t.HasNestedChildren :=
  inferInstanceAs (Decidable (∀ n ∈ t.nodes, _))

instance (t : SyntaxTree) : Decidable t.HasOrderedSiblings :=
  inferInstanceAs (Decidable (∀ n ∈ t.nodes, _))

/-- The nodes of a tree fit its source and each other. -/
structure WellFormed (t : SyntaxTree) : Prop where
  slices : t.HasSlices
  nested : t.HasNestedChildren
  ordered : t.HasOrderedSiblings

variable {t : SyntaxTree} {n : Located}

/-- The source is what stands before a node, the text of the node, and what stands after it. -/
theorem exists_source_eq (h : t.HasSlices) (hn : n ∈ t.nodes) :
    ∃ front back, t.source = front ++ t.textOf n.node ++ back ∧
      Text.byteLength front = n.start ∧ Text.byteLength (front ++ t.textOf n.node) = n.stop := by
  obtain ⟨middle, hmiddle⟩ := Option.isSome_iff_exists.1 (h n hn)
  have htext : t.textOf n.node = middle := by
    show (Text.slice? t.source n.start n.stop).getD [] = middle
    rw [hmiddle, Option.getD_some]
  obtain ⟨front, back, hsource, hstart, hstop⟩ := Text.slice?_eq_some_iff.1 hmiddle
  rw [htext]
  exact ⟨front, back, hsource, hstart, hstop⟩

theorem start_le_stop (h : t.HasSlices) (hn : n ∈ t.nodes) : n.start ≤ n.stop := by
  obtain ⟨front, back, -, hstart, hstop⟩ := exists_source_eq h hn
  rw [← hstart, ← hstop, Text.byteLength_append]
  exact Nat.le_add_right _ _

/-! ### The next sibling -/

/-- The next sibling of a node stands one position further on below the same parent. -/
theorem exists_parent_of_nextSibling? {next : Located} (hn : n ∈ t.nodes)
    (h : t.nextSibling? n = some next) :
    ∃ parent ∈ t.nodes, ∃ i,
      parent.children[i]? = some n ∧ parent.children[i + 1]? = some next := by
  simp only [nextSibling?, bind, Option.bind_eq_some_iff] at h
  obtain ⟨position, hposition, parent, hparent, hnext⟩ := h
  obtain ⟨i, haddress, hchild⟩ := exists_getElem?_of_parent? hn hparent
  rw [haddress, List.getLast?_concat, Option.some.injEq] at hposition
  subst hposition
  exact ⟨parent, mem_nodes_of_parent? hparent, i, hchild, hnext⟩

theorem mem_nodes_of_nextSibling? {next : Located} (hn : n ∈ t.nodes)
    (h : t.nextSibling? n = some next) : next ∈ t.nodes := by
  obtain ⟨parent, hparent, i, -, hnext⟩ := exists_parent_of_nextSibling? hn h
  exact mem_nodes_of_child hparent hnext

/-- A node ends before the next of its siblings starts. -/
theorem stop_le_start_of_nextSibling? {next : Located} (ht : t.HasOrderedSiblings)
    (hn : n ∈ t.nodes) (h : t.nextSibling? n = some next) : n.stop ≤ next.start := by
  obtain ⟨parent, hparent, i, hchild, hnext⟩ := exists_parent_of_nextSibling? hn h
  obtain ⟨hi, rfl⟩ := List.getElem?_eq_some_iff.1 hchild
  obtain ⟨hi', rfl⟩ := List.getElem?_eq_some_iff.1 hnext
  exact List.pairwise_iff_getElem.1 (ht parent hparent) i (i + 1) hi hi' (Nat.lt_succ_self i)

/-! ### Types -/

/-- No type in the tree keeps a structural path from being read back. Positions among siblings are
indices, so they are within bounds. -/
structure HasReadableTypes (t : SyntaxTree) : Prop where
  type_ne_empty : ∀ n ∈ t.nodes, n.type ≠ ""
  type_free : ∀ n ∈ t.nodes, ¬ segmentSeparator <:+: n.type.toList
  root : ∀ c ∈ t.root.type.toList.head?, isBlank c = false
  length_le : ∀ n ∈ t.nodes, n.children.length ≤ maxIndex + 1

theorem HasReadableTypes.hasReadablePath (h : t.HasReadableTypes) (hn : n ∈ t.nodes) :
    t.HasReadablePath n := by
  refine ⟨fun m hm _ => h.type_ne_empty m hm, fun m hm _ => h.type_free m hm, h.root, ?_⟩
  intro i hi
  obtain ⟨front, back, haddress⟩ := List.append_of_mem hi
  -- The node above position `i` has more than `i` children.
  have hat := mem_nodes_iff.1 hn
  rw [haddress, Node.at?_append_eq_some_iff] at hat
  obtain ⟨middle, hmiddle, hbelow⟩ := hat
  obtain ⟨child, hchild, -⟩ := Node.at?_cons_eq_some_iff.1 hbelow
  have hlength := h.length_le ⟨front, middle⟩ (mem_nodes_iff.2 hmiddle)
  obtain ⟨hlt, -⟩ := List.getElem?_eq_some_iff.1 hchild
  simp only [Located.children, List.length_map, List.length_zipIdx] at hlength
  omega

/-- Every node is found by its path as written. -/
theorem resolveText?_render_pathOf (h : t.HasReadableTypes) (hn : n ∈ t.nodes) :
    t.resolveText? (t.pathOf n).render = some n :=
  (resolveText?_render_pathOf_iff hn).2 (h.hasReadablePath hn)

end SyntaxTree

end SyntaxEdit
