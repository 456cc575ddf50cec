/-
The document order of the nodes of a tree.

Addresses tell it: a node comes before all that is below it, and of two siblings the earlier one
comes first, with all that is below it.  That is the order in which words stand in a dictionary.

* `Located.ComesBefore` — the document order; `comesBefore_iff` says what it means for two nodes;
* `find?_eq_some_iff_first` — the first of the nodes that can be found in a list in this order;
* `pairwise_preorder`, `SyntaxTree.pairwise_nodes` — the nodes of a tree are listed in this order,
  so none is listed twice;
* `SyntaxTree.preorder_eq_filter_nodes` — the nodes from a node on are those at the addresses that
  go on from its own.
-/
import SyntaxEdit.Proofs.Nesting

namespace SyntaxEdit

variable {m n : Located}

/-! ### The order -/

/-- Whether a node comes before another one in document order. -/
def Located.ComesBefore (m n : Located) : Prop :=
  m.address < n.address

instance (m n : Located) : Decidable (m.ComesBefore n) :=
  inferInstanceAs (Decidable (m.address < n.address))

theorem lt_of_fork (front back back' : Address) {i j : Nat} (h : i < j) :
    front ++ i :: back < front ++ j :: back' :=
  List.append_left_lt (List.cons_lt_cons_iff.2 (.inl h))

theorem lt_of_isPrefix {a b : Address} (h : a <+: b) (hne : a ≠ b) : a < b := by
  obtain ⟨back, rfl⟩ := h
  cases back with
  | nil => exact absurd (List.append_nil a).symm hne
  | cons i back =>
    calc a = a ++ [] := (List.append_nil a).symm
      _ < a ++ i :: back := List.append_left_lt (List.nil_lt_cons i back)

/-- A node comes before another one if it is above it, or if it is, or is below, an earlier sibling
of a node that is the other one or above it. -/
theorem comesBefore_iff :
    m.ComesBefore n ↔ m.IsAbove n ∨
      ∃ front i j back back', i < j ∧ m.address = front ++ i :: back ∧
        n.address = front ++ j :: back' := by
  constructor
  · intro h
    rcases prefix_or_fork m.address n.address with
      (habove | habove) | ⟨front, i, j, back, back', hlt, ⟨hm, hn⟩ | ⟨hn, hm⟩⟩
    · refine .inl ⟨habove, fun heq => ?_⟩
      rw [Located.ComesBefore, heq] at h
      exact List.lt_irrefl n.address h
    · -- A node does not come before one above it, nor before itself.
      by_cases heq : n.address = m.address
      · rw [Located.ComesBefore, heq] at h
        exact absurd h (List.lt_irrefl m.address)
      · exact absurd h (List.lt_asymm (lt_of_isPrefix habove heq))
    · exact .inr ⟨front, i, j, back, back', hlt, hm, hn⟩
    · rw [Located.ComesBefore, hm, hn] at h
      exact absurd h (List.lt_asymm (lt_of_fork front back back' hlt))
  · rintro (⟨habove, hne⟩ | ⟨front, i, j, back, back', hlt, hm, hn⟩)
    · exact lt_of_isPrefix habove hne
    · rw [Located.ComesBefore, hm, hn]
      exact lt_of_fork front back back' hlt

theorem Located.ComesBefore.asymm (h : m.ComesBefore n) : ¬n.ComesBefore m :=
  List.lt_asymm h

theorem Located.not_comesBefore_self (n : Located) : ¬n.ComesBefore n :=
  List.lt_irrefl n.address

/-- What stands in document order is listed once. -/
theorem nodup_of_pairwise_comesBefore {nodes : List Located}
    (h : nodes.Pairwise Located.ComesBefore) : nodes.Nodup := by
  refine h.imp ?_
  rintro m n hbefore rfl
  exact m.not_comesBefore_self hbefore

/-- In document order, some nodes can be listed in one way only. -/
theorem eq_of_pairwise_comesBefore {nodes nodes' : List Located}
    (h : nodes.Pairwise Located.ComesBefore) (h' : nodes'.Pairwise Located.ComesBefore)
    (hmem : ∀ n, n ∈ nodes ↔ n ∈ nodes') : nodes = nodes' :=
  List.Perm.eq_of_pairwise (fun _ _ _ _ hbefore hbehind => absurd hbehind hbefore.asymm) h h'
    ((List.perm_ext_iff_of_nodup (nodup_of_pairwise_comesBefore h)
      (nodup_of_pairwise_comesBefore h')).2 hmem)

/-- What is found first in document order comes before all else that could be found. -/
theorem comesBefore_of_find? {nodes : List Located} {p : Located → Bool}
    (h : nodes.Pairwise Located.ComesBefore) (hfound : nodes.find? p = some m) :
    ∀ other ∈ nodes, p other = true → other = m ∨ m.ComesBefore other := by
  obtain ⟨-, front, back, rfl, hfront⟩ := List.find?_eq_some_iff_append.1 hfound
  intro other hother hp
  rcases List.mem_append.1 hother with hbefore | hfrom
  · exact absurd hp (by simpa using hfront other hbefore)
  · rcases List.mem_cons.1 hfrom with rfl | hbehind
    · exact .inl rfl
    · exact .inr ((List.pairwise_cons.1 (List.pairwise_append.1 h).2.1).1 other hbehind)

/-- In document order, the first of the nodes that can be found is found. -/
theorem find?_eq_some_iff_first {nodes : List Located} {p : Located → Bool}
    (h : nodes.Pairwise Located.ComesBefore) :
    nodes.find? p = some m ↔
      m ∈ nodes ∧ p m = true ∧
        ∀ other ∈ nodes, p other = true → other = m ∨ m.ComesBefore other := by
  constructor
  · intro hfound
    exact ⟨List.mem_of_find?_eq_some hfound, List.find?_some hfound,
      comesBefore_of_find? h hfound⟩
  · rintro ⟨hmem, hm, hfirst⟩
    cases hfound : nodes.find? p with
    | none => exact absurd hm (List.find?_eq_none.1 hfound m hmem)
    | some first =>
      rcases hfirst first (List.mem_of_find?_eq_some hfound) (List.find?_some hfound) with
        rfl | hbefore
      · rfl
      · -- Each of the two would come before the other.
        rcases comesBefore_of_find? h hfound m hmem hm with rfl | hbehind
        · rfl
        · exact absurd hbehind hbefore.asymm

/-! ### The nodes of a tree -/

mutual

/-- The nodes of a tree are listed in document order. -/
theorem pairwise_preorder (root : Node) : root.preorder.Pairwise Located.ComesBefore := by
  cases root with
  | mk label children =>
    rw [Node.preorder]
    refine List.pairwise_cons.2 ⟨fun n hn => ?_, pairwise_preorderFrom 0 children⟩
    obtain ⟨j, child, rest, haddress, -⟩ := (mem_preorderFrom_iff 0 children n).1 hn
    rw [Located.ComesBefore, haddress]
    exact List.nil_lt_cons _ _

theorem pairwise_preorderFrom (i : Nat) (children : List Node) :
    (preorderFrom i children).Pairwise Located.ComesBefore := by
  cases children with
  | nil => exact .nil
  | cons child rest =>
    rw [preorderFrom, List.pairwise_append]
    refine ⟨?_, pairwise_preorderFrom (i + 1) rest, fun m hm n hn => ?_⟩
    · refine (pairwise_preorder child).map _ fun m n h => ?_
      exact List.cons_lt_cons_iff.2 (.inr ⟨rfl, h⟩)
    · obtain ⟨below, -, rfl⟩ := List.mem_map.1 hm
      obtain ⟨j, sibling, way, haddress, -⟩ := (mem_preorderFrom_iff (i + 1) rest n).1 hn
      rw [Located.ComesBefore, haddress]
      exact List.cons_lt_cons_iff.2 (.inl (by omega))

end

namespace SyntaxTree

variable {t : SyntaxTree}

theorem pairwise_nodes (t : SyntaxTree) : t.nodes.Pairwise Located.ComesBefore := by
  rw [nodes_eq_preorder]
  exact pairwise_preorder t.root

theorem nodup_nodes (t : SyntaxTree) : t.nodes.Nodup :=
  nodup_of_pairwise_comesBefore t.pairwise_nodes

/-- The nodes from a node on, in document order, are those at the addresses that go on from its
own. -/
theorem preorder_eq_filter_nodes (hn : n ∈ t.nodes) :
    n.preorder = t.nodes.filter fun m => n.address <+: m.address := by
  -- Both lists are in document order, so it is enough that they have the same members.
  refine eq_of_pairwise_comesBefore
    ((pairwise_preorder n.node).map _ fun _ _ h => List.append_left_lt h)
    (t.pairwise_nodes.filter _) fun m => ?_
  have hat := mem_nodes_iff.1 hn
  simp only [Located.preorder, List.mem_map, mem_preorder_iff, List.mem_filter, mem_nodes_iff,
    decide_eq_true_eq]
  constructor
  · rintro ⟨below, hbelow, rfl⟩
    exact ⟨Node.at?_append_eq_some_iff.2 ⟨n.node, hat, hbelow⟩, List.prefix_append _ _⟩
  · rintro ⟨hm, back, haddress⟩
    rw [← haddress, Node.at?_append_eq_some_iff] at hm
    obtain ⟨middle, hmiddle, hback⟩ := hm
    obtain rfl : n.node = middle := Option.some.inj (hat.symm.trans hmiddle)
    refine ⟨⟨back, m.node⟩, hback, ?_⟩
    obtain ⟨address, node⟩ := m
    exact congrArg (Located.mk · node) haddress

/-- The nodes below a node, child by child, are those that it is above. -/
theorem flatMap_preorder_children (hn : n ∈ t.nodes) :
    n.children.flatMap Located.preorder = t.nodes.filter fun m => n.IsAbove m := by
  have hfilter := preorder_eq_filter_nodes hn
  have hsorted := t.pairwise_nodes.filter fun m => decide (n.address <+: m.address)
  rw [Located.preorder_eq] at hfilter
  rw [← hfilter] at hsorted
  -- The node itself is the first of its subtree, and what follows it is below.
  obtain ⟨hfirst, hbelow⟩ := List.pairwise_cons.1 hsorted
  refine eq_of_pairwise_comesBefore hbelow (t.pairwise_nodes.filter _) fun m => ?_
  have hmem : m ∈ n :: n.children.flatMap Located.preorder ↔
      m ∈ t.nodes ∧ n.address <+: m.address := by
    rw [hfilter, List.mem_filter, decide_eq_true_eq]
  rw [List.mem_filter, decide_eq_true_eq]
  constructor
  · intro hm
    obtain ⟨hnodes, habove⟩ := hmem.1 (List.mem_cons_of_mem n hm)
    refine ⟨hnodes, habove, fun heq => List.lt_irrefl m.address ?_⟩
    simpa only [Located.ComesBefore, heq] using hfirst m hm
  · rintro ⟨hnodes, habove, hne⟩
    rcases List.mem_cons.1 (hmem.2 ⟨hnodes, habove⟩) with rfl | hm
    · exact absurd rfl hne
    · exact hm

end SyntaxTree

end SyntaxEdit
