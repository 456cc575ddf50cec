/-
The ranges of the nodes of a tree are nested.

A node is above another one if its address is the start of the address of the other.  Where children
lie in their parents and siblings follow each other, the ranges of nodes tell the same:

* `Located.IsAbove` — the proper ancestors of a node;
* `range_of_isPrefix` — the range of a node lies in the ranges of all nodes above it;
* `stop_le_start_of_fork` — below two siblings, all ranges of the first come before those of the
  second;
* `prefix_or_prefix_of_overlap` — so of two nodes that share a byte, one is above the other.
-/
import Mathlib.Data.List.Induction
import SyntaxEdit.Proofs.WellFormed

namespace SyntaxEdit

/-! ### Addresses -/

/-- Whether a node is a proper ancestor of another one. -/
def Located.IsAbove (ancestor n : Located) : Prop :=
  ancestor.address <+: n.address ∧ ancestor.address ≠ n.address

instance (ancestor n : Located) : Decidable (ancestor.IsAbove n) :=
  inferInstanceAs (Decidable (_ ∧ _))

/-- Two addresses lead along one way, or they part somewhere. -/
theorem prefix_or_fork (a b : Address) :
    (a <+: b ∨ b <+: a) ∨
      ∃ front i j back back', i < j ∧
        (a = front ++ i :: back ∧ b = front ++ j :: back' ∨
          b = front ++ i :: back ∧ a = front ++ j :: back') := by
  induction a generalizing b with
  | nil => exact .inl (.inl List.nil_prefix)
  | cons k a ih =>
    cases b with
    | nil => exact .inl (.inr List.nil_prefix)
    | cons l b =>
      -- At the first step in which they differ, the smaller one comes first.
      rcases Nat.lt_trichotomy k l with hlt | rfl | hlt
      · exact .inr ⟨[], k, l, a, b, hlt, .inl ⟨rfl, rfl⟩⟩
      · rcases ih b with (h | h) | ⟨front, i, j, back, back', hlt, h⟩
        · exact .inl (.inl (List.cons_prefix_cons.2 ⟨rfl, h⟩))
        · exact .inl (.inr (List.cons_prefix_cons.2 ⟨rfl, h⟩))
        · refine .inr ⟨k :: front, i, j, back, back', hlt, h.imp ?_ ?_⟩ <;>
            rintro ⟨rfl, rfl⟩ <;> exact ⟨rfl, rfl⟩
      · exact .inr ⟨[], l, k, b, a, hlt, .inr ⟨rfl, rfl⟩⟩

namespace SyntaxTree

variable {t : SyntaxTree} {m n : Located}

/-- A node stands at every address on the way to a node. -/
theorem exists_mem_nodes_of_isPrefix {front : Address} (hn : n ∈ t.nodes)
    (h : front <+: n.address) : ∃ m ∈ t.nodes, m.address = front := by
  obtain ⟨back, haddress⟩ := h
  have hat := mem_nodes_iff.1 hn
  rw [← haddress, Node.at?_append_eq_some_iff] at hat
  obtain ⟨middle, hmiddle, -⟩ := hat
  exact ⟨⟨front, middle⟩, mem_nodes_iff.2 hmiddle, rfl⟩

/-- A node is the child of the node that its address without the last position leads to. -/
theorem getElem?_children_of_address {parent : Located} {i : Nat} (hn : n ∈ t.nodes)
    (hparent : parent ∈ t.nodes) (h : n.address = parent.address ++ [i]) :
    parent.children[i]? = some n := by
  have hup : t.parent? n = some parent := parent?_eq_some_iff.2 ⟨i, h, mem_nodes_iff.1 hparent⟩
  obtain ⟨j, haddress, hchild⟩ := exists_getElem?_of_parent? hn hup
  obtain rfl : i = j := by simpa using h.symm.trans haddress
  exact hchild

/-! ### Ranges -/

/-- The range of a node lies in that of every node on the way to it. -/
theorem range_of_isPrefix (hnested : t.HasNestedChildren) (hm : m ∈ t.nodes) (hn : n ∈ t.nodes)
    (h : m.address <+: n.address) : m.start ≤ n.start ∧ n.stop ≤ m.stop := by
  obtain ⟨back, haddress⟩ := h
  -- From one node on the way to the next, from the top down.
  induction back using List.reverseRecOn generalizing n with
  | nil =>
    obtain rfl : m = n := eq_of_address_eq hm hn (by simpa using haddress)
    exact ⟨Nat.le_refl _, Nat.le_refl _⟩
  | append_singleton back i ih =>
    rw [← List.append_assoc] at haddress
    obtain ⟨parent, hparent, hfront⟩ := exists_mem_nodes_of_isPrefix hn ⟨[i], haddress⟩
    have hchild := getElem?_children_of_address hn hparent (by rw [hfront, haddress])
    obtain ⟨hstart, hstop⟩ := hnested parent hparent n (List.mem_of_getElem? hchild)
    obtain ⟨hstart', hstop'⟩ := ih hparent hfront.symm
    exact ⟨Nat.le_trans hstart' hstart, Nat.le_trans hstop hstop'⟩

/-- Where the ways to two nodes part, the one that goes to the earlier sibling leads to a range that
ends before the other range starts. -/
theorem stop_le_start_of_fork (hnested : t.HasNestedChildren) (hordered : t.HasOrderedSiblings)
    (hm : m ∈ t.nodes) (hn : n ∈ t.nodes) {front back back' : Address} {i j : Nat} (hlt : i < j)
    (hleft : m.address = front ++ i :: back) (hright : n.address = front ++ j :: back') :
    m.stop ≤ n.start := by
  rw [List.append_cons] at hleft hright
  -- Above the two nodes stand two children of one parent, in this order.
  obtain ⟨parent, hparent, hfront⟩ := exists_mem_nodes_of_isPrefix hm
    (List.IsPrefix.trans (List.prefix_append front [i]) ⟨back, hleft.symm⟩)
  obtain ⟨first, hfirst, hat⟩ := exists_mem_nodes_of_isPrefix hm ⟨back, hleft.symm⟩
  obtain ⟨second, hsecond, hat'⟩ := exists_mem_nodes_of_isPrefix hn ⟨back', hright.symm⟩
  have hchild := getElem?_children_of_address hfirst hparent (by rw [hat, hfront])
  have hchild' := getElem?_children_of_address hsecond hparent (by rw [hat', hfront])
  obtain ⟨hi, rfl⟩ := List.getElem?_eq_some_iff.1 hchild
  obtain ⟨hj, rfl⟩ := List.getElem?_eq_some_iff.1 hchild'
  calc m.stop
      ≤ (parent.children[i]).stop :=
        (range_of_isPrefix hnested hfirst hm ⟨back, by rw [hat, hleft]⟩).2
    _ ≤ (parent.children[j]).start :=
        List.pairwise_iff_getElem.1 (hordered parent hparent) i j hi hj hlt
    _ ≤ n.start := (range_of_isPrefix hnested hsecond hn ⟨back', by rw [hat', hright]⟩).1

/-- **Of two nodes that share a byte, one is on the way to the other.** -/
theorem prefix_or_prefix_of_overlap (hnested : t.HasNestedChildren)
    (hordered : t.HasOrderedSiblings) (hm : m ∈ t.nodes) (hn : n ∈ t.nodes)
    (hbefore : m.start < n.stop) (hbehind : n.start < m.stop) :
    m.address <+: n.address ∨ n.address <+: m.address := by
  rcases prefix_or_fork m.address n.address with
    h | ⟨front, i, j, back, back', hlt, ⟨hleft, hright⟩ | ⟨hleft, hright⟩⟩
  · exact h
  · exact absurd (stop_le_start_of_fork hnested hordered hm hn hlt hleft hright)
      (Nat.not_le.2 hbehind)
  · exact absurd (stop_le_start_of_fork hnested hordered hn hm hlt hleft hright)
      (Nat.not_le.2 hbefore)

end SyntaxTree

end SyntaxEdit
