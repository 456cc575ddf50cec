/-
The smallest node around a range of the source.

The way down goes to the first child that covers the range, as long as there is one.  Where children
lie in their parents and siblings follow each other, no other child covers any byte of the range, so
the way leads past every node that covers it.

* `Located.Covers` — whether a range of the source lies in the range of a node;
* `isPrefix_smallestCovering` — a node that covers the range is on the way;
* `exists_isSmallestAround` — the way ends at a node that covers the range, or at the root;
* `locate_leftmost` — every occurrence of a text is reported, with the smallest node around it.
-/
import Mathlib.Data.List.Forall2
import SyntaxEdit.Proofs.Nesting
import SyntaxEdit.Proofs.Occurrences

namespace SyntaxEdit

open Text (byteLength)

variable {start stop : Nat}

/-- Whether the range of a node has all of a range of the source in it. -/
def Located.Covers (n : Located) (start stop : Nat) : Prop :=
  n.start ≤ start ∧ stop ≤ n.stop

instance (n : Located) (start stop : Nat) : Decidable (n.Covers start stop) :=
  inferInstanceAs (Decidable (_ ∧ _))

/-! ### The way down -/

/-- Among siblings, the way goes on to one that covers the range, and ends where there is none. -/
theorem coveringFrom_cases (start stop i : Nat) (children : List Node) :
    (coveringFrom start stop i children = [] ∧
        ∀ child ∈ children, ¬(child.start ≤ start ∧ stop ≤ child.stop)) ∨
      ∃ j child, children[j]? = some child ∧ child.start ≤ start ∧ stop ≤ child.stop ∧
        coveringFrom start stop i children = (i + j) :: child.smallestCovering start stop := by
  induction children generalizing i with
  | nil => exact .inl ⟨rfl, by simp⟩
  | cons child rest ih =>
    obtain ⟨label, grandchildren⟩ := child
    rw [coveringFrom]
    by_cases hcovers : label.start ≤ start ∧ stop ≤ label.stop
    · rw [if_pos hcovers]
      exact .inr ⟨0, _, rfl, hcovers.1, hcovers.2, rfl⟩
    · rw [if_neg hcovers]
      rcases ih (i + 1) with ⟨hend, hnone⟩ | ⟨j, child, hchild, hstart, hstop, hway⟩
      · exact .inl ⟨hend, List.forall_mem_cons.2 ⟨hcovers, hnone⟩⟩
      · refine .inr ⟨j + 1, child, by simpa using hchild, hstart, hstop, ?_⟩
        rw [hway, Nat.add_assoc, Nat.add_comm 1 j]

/-- From a node, the way goes on to a child that covers the range, and ends where there is none. -/
theorem smallestCovering_cases (start stop : Nat) (n : Node) :
    (n.smallestCovering start stop = [] ∧
        ∀ child ∈ n.children, ¬(child.start ≤ start ∧ stop ≤ child.stop)) ∨
      ∃ j child, n.children[j]? = some child ∧ child.start ≤ start ∧ stop ≤ child.stop ∧
        n.smallestCovering start stop = j :: child.smallestCovering start stop := by
  obtain ⟨label, children⟩ := n
  have hcases := coveringFrom_cases start stop 0 children
  simp only [Nat.zero_add] at hcases
  rw [Node.smallestCovering]
  exact hcases

/-- The way ends at a node, which covers the range if the way is of any length. -/
theorem exists_at?_smallestCovering (start stop : Nat) (n : Node) :
    ∃ m, n.at? (n.smallestCovering start stop) = some m ∧
      (n.smallestCovering start stop = [] ∨ m.start ≤ start ∧ stop ≤ m.stop) := by
  generalize hway : n.smallestCovering start stop = way
  induction way generalizing n with
  | nil => exact ⟨n, Node.at?_nil n, .inl rfl⟩
  | cons i way ih =>
    rcases smallestCovering_cases start stop n with
      ⟨hend, -⟩ | ⟨j, child, hchild, hstart, hstop, hnext⟩
    · cases hend.symm.trans hway
    obtain ⟨rfl, hbelow⟩ := List.cons.inj (hnext.symm.trans hway)
    obtain ⟨m, hm, hcovers⟩ := ih child hbelow
    refine ⟨m, Node.at?_cons_eq_some_iff.2 ⟨child, hchild, hm⟩, .inr ?_⟩
    rcases hcovers with rfl | hcovers
    · obtain rfl : child = m := by simpa using hm
      exact ⟨hstart, hstop⟩
    · exact hcovers

namespace SyntaxTree

variable {t : SyntaxTree} {m n : Located} {part : Text}

theorem covers_of_isPrefix (hnested : t.HasNestedChildren) (hm : m ∈ t.nodes) (hn : n ∈ t.nodes)
    (h : m.address <+: n.address) (hcovers : n.Covers start stop) : m.Covers start stop := by
  obtain ⟨hstart, hstop⟩ := range_of_isPrefix hnested hm hn h
  exact ⟨Nat.le_trans hstart hcovers.1, Nat.le_trans hcovers.2 hstop⟩

/-- **A node that covers a range is on the way to the smallest one**, if the range is not empty. -/
theorem isPrefix_smallestCovering (hnested : t.HasNestedChildren) (hordered : t.HasOrderedSiblings)
    (hlt : start < stop) (hn : n ∈ t.nodes) (hm : m ∈ t.nodes) {below : Address}
    (haddress : m.address = n.address ++ below) (hcovers : m.Covers start stop) :
    below <+: n.node.smallestCovering start stop := by
  -- The induction follows the way to the node that covers the range, from the top down.
  induction below generalizing n with
  | nil => exact List.nil_prefix
  | cons i below ih =>
    rw [List.append_cons] at haddress
    obtain ⟨first, hfirst, hplace⟩ := exists_mem_nodes_of_isPrefix hm ⟨below, haddress.symm⟩
    have hchild := (Located.getElem?_children_eq_some_iff.1
      (getElem?_children_of_address hfirst hn hplace)).2
    have hover : first.Covers start stop :=
      covers_of_isPrefix hnested hfirst hm ⟨below, by rw [hplace, haddress]⟩ hcovers
    rcases smallestCovering_cases start stop n.node with
      ⟨-, hnone⟩ | ⟨j, child, hsecond, hstart, hstop, hway⟩
    · exact absurd hover (hnone first.node (List.mem_of_getElem? hchild))
    have hmem : (⟨n.address ++ [j], child⟩ : Located) ∈ t.nodes :=
      mem_nodes_of_child hn (Located.getElem?_children_eq_some_iff.2 ⟨rfl, hsecond⟩)
    -- The two children share a byte, so they are one.
    have hsame : i = j := by
      have hoverlap := prefix_or_prefix_of_overlap hnested hordered hfirst hmem
        (Nat.lt_of_le_of_lt hover.1 (Nat.lt_of_lt_of_le hlt hstop))
        (Nat.lt_of_le_of_lt hstart (Nat.lt_of_lt_of_le hlt hover.2))
      rw [hplace] at hoverlap
      rcases hoverlap with h | h
      · simpa using h.eq_of_length (by simp)
      · simpa using (h.eq_of_length (by simp)).symm
    subst hsame
    obtain rfl : first.node = child := Option.some.inj (hchild.symm.trans hsecond)
    rw [hway]
    exact List.cons_prefix_cons.2 ⟨rfl, ih hfirst (by rw [haddress, hplace])⟩

/-- Whether a node is the smallest one around a range: it covers the range if any node does, and all
others that cover the range are above it.  If there is none, it is the root. -/
structure IsSmallestAround (t : SyntaxTree) (n : Located) (start stop : Nat) : Prop where
  mem_nodes : n ∈ t.nodes
  covers : ∀ m ∈ t.nodes, m.Covers start stop → n.Covers start stop ∧ (m = n ∨ m.IsAbove n)
  eq_root : (∀ m ∈ t.nodes, ¬m.Covers start stop) → n = t.rootNode

/-- **The way down ends at the smallest node** around a range that is not empty. -/
theorem exists_isSmallestAround (hnested : t.HasNestedChildren) (hordered : t.HasOrderedSiblings)
    (hlt : start < stop) :
    ∃ n, t.IsSmallestAround n start stop ∧ n.address = t.root.smallestCovering start stop := by
  obtain ⟨node, hnode, hend⟩ := exists_at?_smallestCovering start stop t.root
  have hmem : (⟨t.root.smallestCovering start stop, node⟩ : Located) ∈ t.nodes :=
    mem_nodes_iff.2 hnode
  refine ⟨_, ⟨hmem, fun m hm hcovers => ⟨?_, ?_⟩, fun hnone => ?_⟩, rfl⟩
  · rcases hend with hroot | hcovered
    · -- The way ends at the root, and that covers whatever a node below it covers.
      exact covers_of_isPrefix hnested hmem hm (by simp [hroot]) hcovers
    · exact hcovered
  · have hway :=
      isPrefix_smallestCovering hnested hordered hlt (rootNode_mem_nodes t) hm rfl hcovers
    by_cases hsame : m.address = t.root.smallestCovering start stop
    · exact .inl (eq_of_address_eq hm hmem hsame)
    · exact .inr ⟨hway, hsame⟩
  · have hroot := hend.resolve_right (hnone _ hmem)
    exact eq_of_address_eq hmem (rootNode_mem_nodes t) hroot

/-! ### Reported occurrences -/

/-- What is reported of an occurrence is the path and the text of the node that the way down ends
at. -/
theorem occurrenceAt_eq {row column : Nat} (hn : n ∈ t.nodes)
    (h : n.address = t.root.smallestCovering (t.source.rowStart row + column)
      (t.source.rowStart row + column + byteLength part)) :
    t.occurrenceAt part row column = ⟨t.pathOf n, row, column, t.textOf n.node⟩ := by
  rw [occurrenceAt, ← h, mem_nodes_iff.1 hn]
  rfl

/-- **Every occurrence of a text is reported, with the smallest node around it.**  The occurrences
are the leftmost ones of each line, line by line.  Each of them stands in the source at the column
behind the start of its row.  Its path names the smallest node around it, and its text is that of
the node. -/
theorem locate_leftmost (h : t.WellFormed) (hne : part ≠ []) :
    (∃ columns, List.Forall₂ (AreLeftmost part) (Text.splitOn '\n' t.source) columns ∧
        (t.locate part).map (fun o => (o.row, o.column)) =
          columns.zipIdx.flatMap fun (found, row) => found.map fun column => (row, column)) ∧
      ∀ o ∈ t.locate part, ∃ start stop, start = t.source.rowStart o.row + o.column ∧
        Text.slice? t.source start stop = some part ∧
        ∃ n, t.resolve? o.path = some n ∧ Text.slice? t.source n.start n.stop = some o.text ∧
          t.IsSmallestAround n start stop := by
  rw [locate_eq t hne]
  refine ⟨⟨(Text.splitOn '\n' t.source).map (occurrences part), ?_, ?_⟩, fun o ho => ?_⟩
  · exact List.forall₂_map_right_iff.2 (List.forall₂_same.2 fun _ _ => (areLeftmost_iff hne).2 rfl)
  · rw [List.map_flatMap, List.zipIdx_map, List.flatMap_map]
    simp only [List.map_map]
    rfl
  · obtain ⟨⟨line, row⟩, hline, ho⟩ := List.mem_flatMap.1 ho
    obtain ⟨column, hcolumn, rfl⟩ := List.mem_map.1 ho
    obtain ⟨front, back, rfl, rfl⟩ := ((areLeftmost_iff hne).2 rfl).exists_eq hcolumn
    have hslice := Text.slice?_rowStart (List.mem_zipIdx_iff_getElem?.1 hline)
    -- A text that is looked for is not empty, so its range has a smallest node around it.
    have hlt : t.source.rowStart row + byteLength front <
        t.source.rowStart row + byteLength front + byteLength part := by
      obtain ⟨c, others, rfl⟩ := List.exists_cons_of_ne_nil hne
      have hpos := Char.utf8Size_pos c
      rw [Text.byteLength_cons]
      omega
    obtain ⟨n, hsmallest, haddress⟩ := exists_isSmallestAround h.nested h.ordered hlt
    rw [occurrenceAt_eq hsmallest.mem_nodes haddress]
    obtain ⟨middle, hmiddle⟩ := Option.isSome_iff_exists.1 (h.slices n hsmallest.mem_nodes)
    refine ⟨_, _, rfl, hslice, n, resolve?_pathOf hsmallest.mem_nodes, ?_, hsmallest⟩
    show _ = some ((Text.slice? t.source n.start n.stop).getD [])
    rw [hmiddle, Option.getD_some]

/-- A call on the second line, with a name of two bytes and a closing bracket that the parser has
supplied.  The root starts behind the first line break and ends before the last one. -/
def ofUnclosedArguments : SyntaxTree where
  root :=
    .mk ⟨"program", true, false, false, false, 1, 11, none⟩
      [.mk ⟨"call_expression", true, false, false, false, 1, 11, none⟩
        [.mk ⟨"identifier", true, false, false, false, 1, 3, some "function"⟩ [],
          .mk ⟨"arguments", true, false, false, false, 3, 11, some "arguments"⟩
            [.mk ⟨"(", false, false, false, false, 3, 4, none⟩ [],
              .mk ⟨"identifier", true, false, false, false, 4, 6, none⟩ [],
              .mk ⟨",", false, false, false, false, 6, 7, none⟩ [],
              .mk ⟨"identifier", true, false, false, false, 8, 11, none⟩ [],
              .mk ⟨")", false, true, false, false, 11, 11, none⟩ []]]]
  broken := true
  source := "\nÉ(aa, aaa\r\n".toList
  pack := LanguagePack.plain "javascript" .javascript

/-- The first occurrence is an argument itself.  The second one is in an argument, and the third one
overlaps it and is not reported. -/
theorem locate_leftmost_unclosedArguments :
    (ofUnclosedArguments.locate "aa".toList).map (fun o => (o.row, o.column, o.text)) =
        [(1, 3, "aa".toList), (1, 7, "aaa".toList)] ∧
      ∀ o ∈ ofUnclosedArguments.locate "aa".toList, ∃ start stop,
        start = ofUnclosedArguments.source.rowStart o.row + o.column ∧
          Text.slice? ofUnclosedArguments.source start stop = some "aa".toList ∧
          ∃ n, ofUnclosedArguments.resolve? o.path = some n ∧
            Text.slice? ofUnclosedArguments.source n.start n.stop = some o.text ∧
            ofUnclosedArguments.IsSmallestAround n start stop :=
  ⟨by decide +kernel, (locate_leftmost ⟨by decide, by decide, by decide⟩ (by decide)).2⟩

/-- The carriage return stands behind the root, so that the root is reported. -/
example : (ofUnclosedArguments.locate "\r".toList).map (fun o => (o.row, o.column, o.text)) =
    [(1, 10, "É(aa, aaa".toList)] := by decide +kernel

end SyntaxTree

end SyntaxEdit
