/-
The smallest class around a node.

A class encloses a node if it is another node and its range covers that of the node.  No parents are
looked at: that what is found stands above the node follows from the ranges.

* `ConstructIndex.IsOver` — an index of a tree, whichever queries have found its classes;
* `of_shortest?_filter`, `shortest?_filter_eq_none_iff` — what is shortest among the classes that
  meet a condition;
* `encloses_of_isAbove`, `isAbove_of_encloses` — a node that is no empty text is enclosed by what is
  above it, and beyond that only by nodes below it with the same range;
* `enclosingClass?_nearest` — so the smallest class around a node is its nearest ancestor among the
  classes, if no class below the node has the same range.
-/
import Mathlib.Data.List.Nodup
import SyntaxEdit.Proofs.ListedPaths
import SyntaxEdit.Proofs.Nesting

namespace SyntaxEdit

/-! ### The shortest class -/

theorem byteLength_le_of_shortest? {constructs : List NamedConstruct} {c d : NamedConstruct}
    (h : shortest? constructs = some c) (hd : d ∈ constructs) : c.byteLength ≤ d.byteLength := by
  induction constructs generalizing c with
  | nil => cases h
  | cons first rest ih =>
    rw [shortest?] at h
    cases hrest : shortest? rest with
    | none =>
      rw [shortest?_eq_none_iff] at hrest
      subst hrest
      obtain rfl := Option.some.inj h
      obtain rfl := List.mem_singleton.1 hd
      exact Nat.le_refl _
    | some best =>
      simp only [hrest] at h
      -- The first construct stays unless one of the rest is strictly shorter.
      split at h <;> obtain rfl := Option.some.inj h <;> rcases List.mem_cons.1 hd with rfl | hd
      · exact Nat.le_of_lt ‹_›
      · exact ih hrest hd
      · exact Nat.le_refl _
      · exact Nat.le_trans (Nat.not_lt.1 ‹_›) (ih hrest hd)

/-- What is shortest among some constructs that meet a condition. -/
theorem of_shortest?_filter {constructs : List NamedConstruct} {p : NamedConstruct → Bool}
    {c : NamedConstruct} (h : shortest? (constructs.filter p) = some c) :
    c ∈ constructs ∧ p c = true ∧ ∀ d ∈ constructs, p d = true → c.byteLength ≤ d.byteLength := by
  obtain ⟨hc, hp⟩ := List.mem_filter.1 (mem_of_shortest? h)
  exact ⟨hc, hp, fun d hd hpd => byteLength_le_of_shortest? h (List.mem_filter.2 ⟨hd, hpd⟩)⟩

theorem shortest?_filter_eq_none_iff {constructs : List NamedConstruct}
    {p : NamedConstruct → Bool} :
    shortest? (constructs.filter p) = none ↔ ∀ c ∈ constructs, ¬ p c = true := by
  rw [shortest?_eq_none_iff, List.filter_eq_nil_iff]

/-! ### Enclosing nodes -/

theorem Located.encloses_iff {outer inner : Located} :
    outer.encloses inner = true ↔
      outer.address ≠ inner.address ∧ outer.start ≤ inner.start ∧ inner.stop ≤ outer.stop := by
  simp [Located.encloses, and_assoc]

namespace SyntaxTree

variable {t : SyntaxTree} {m n : Located}

/-- A node is enclosed by all nodes above it. -/
theorem encloses_of_isAbove (hnested : t.HasNestedChildren) (hm : m ∈ t.nodes) (hn : n ∈ t.nodes)
    (h : m.IsAbove n) : m.encloses n = true :=
  Located.encloses_iff.2 ⟨h.2, range_of_isPrefix hnested hm hn h.1⟩

/-- What encloses a node that is no empty text is above the node, or below it on the same range. -/
theorem isAbove_of_encloses (hnested : t.HasNestedChildren) (hordered : t.HasOrderedSiblings)
    (hm : m ∈ t.nodes) (hn : n ∈ t.nodes) (hlength : n.start < n.stop) (h : m.encloses n = true) :
    m.IsAbove n ∨ (n.IsAbove m ∧ m.start = n.start ∧ m.stop = n.stop) := by
  obtain ⟨hne, hstart, hstop⟩ := Located.encloses_iff.1 h
  rcases prefix_or_prefix_of_overlap hnested hordered hm hn (Nat.lt_of_le_of_lt hstart hlength)
    (Nat.lt_of_lt_of_le hlength hstop) with hway | hway
  · exact .inl ⟨hway, hne⟩
  · obtain ⟨hstart', hstop'⟩ := range_of_isPrefix hnested hn hm hway
    exact .inr ⟨⟨hway, hne.symm⟩, Nat.le_antisymm hstart hstart', Nat.le_antisymm hstop' hstop⟩

end SyntaxTree

/-! ### Indices -/

namespace ConstructIndex

/-- Whether an index is one of a tree: its classes are nodes of the tree, none of them listed
twice. -/
structure IsOver (index : ConstructIndex) (t : SyntaxTree) : Prop where
  mem_nodes : ∀ c ∈ index.classes, c.node ∈ t.nodes
  nodup : (index.classes.map fun c => c.node.address).Nodup

/-- What the queries of a pack find in a tree is an index of it. -/
theorem isOver_build {t : SyntaxTree} (hqueries : t.queries.FindsNodes) : (build t).IsOver t := by
  refine ⟨fun c hc => mem_nodes_of_mem_namedIn hqueries hc, ?_⟩
  have hperm := List.mergeSort_perm
    (firstOfEach (fun c => c.node.address)
      ((t.constructs .classes).filterMap (ConstructMatch.named? t)))
    fun a b => a.node.precedes b.node
  exact (hperm.map _).nodup_iff.2 (nodup_map_firstOfEach _ _)

variable {t : SyntaxTree} {index : ConstructIndex} {n : Located} {c : NamedConstruct}

/-- **The smallest class around a node is the nearest class among its ancestors**, in every index of
a tree with nested ranges, if the node is no empty text and no class below it has the same range.
There is none exactly if no ancestor is a class. -/
theorem enclosingClass?_nearest (hnested : t.HasNestedChildren) (hordered : t.HasOrderedSiblings)
    (hindex : index.IsOver t) (hn : n ∈ t.nodes) (hlength : n.start < n.stop)
    (hbelow : ∀ c ∈ index.classes, n.IsAbove c.node →
      ¬ (c.node.start = n.start ∧ c.node.stop = n.stop)) :
    (index.enclosingClass? n = none ↔ ∀ c ∈ index.classes, ¬ c.node.IsAbove n) ∧
      ∀ c, index.enclosingClass? n = some c →
        c ∈ index.classes ∧ c.node.IsAbove n ∧
          ∀ d ∈ index.classes, d.node.IsAbove n → c.byteLength ≤ d.byteLength := by
  -- Covering the range of a node is the same as standing above it, for classes under `hbelow`.
  have henclosing : ∀ c ∈ index.classes, (c.node.encloses n = true ↔ c.node.IsAbove n) := by
    intro c hc
    have hmem := hindex.mem_nodes c hc
    constructor
    · intro h
      refine (SyntaxTree.isAbove_of_encloses hnested hordered hmem hn hlength h).resolve_right ?_
      -- Only a class below `n` with the same range could cover it without being above it.
      rintro ⟨habove, hrange⟩
      exact hbelow c hc habove hrange
    · exact SyntaxTree.encloses_of_isAbove hnested hmem hn
  constructor
  · rw [enclosingClass?, shortest?_filter_eq_none_iff]
    exact forall₂_congr fun c hc => not_congr (henclosing c hc)
  · intro c h
    obtain ⟨hc, henclosed, hleast⟩ := of_shortest?_filter h
    exact ⟨hc, (henclosing c hc).1 henclosed,
      fun d hd habove => hleast d hd ((henclosing d hd).2 habove)⟩

end ConstructIndex

namespace SyntaxTree

/-- A class with a method. -/
def classWithMethod : Node :=
  .mk ⟨"class", true, false, false, false, 0, 11, none⟩
    [.mk ⟨"identifier", true, false, false, false, 6, 8, some "name"⟩ [],
      .mk ⟨"method", true, false, false, false, 9, 10, none⟩
        [.mk ⟨"identifier", true, false, false, false, 9, 10, some "name"⟩ []]]

/-- A statement that is all class. -/
def classStatement : Node :=
  .mk ⟨"statement", true, false, false, false, 0, 11, none⟩ [classWithMethod]

/-- The tree of such a statement. The query finds the class. -/
def ofClassStatement : SyntaxTree where
  root := .mk ⟨"source_file", true, false, false, false, 0, 11, none⟩ [classStatement]
  broken := false
  source := "class É{f}".toList
  pack := (LanguagePack.plain "kotlin" .kotlin).withQuery .classes
    "(class name: (_) @name) @class".toList

/-- The method of the class in that tree. -/
def onlyMethod : Located :=
  ⟨[0, 0, 1], .mk ⟨"method", true, false, false, false, 9, 10, none⟩
    [.mk ⟨"identifier", true, false, false, false, 9, 10, some "name"⟩ []]⟩

/-- The class is found for its method, and stands above it. -/
theorem enclosingClass?_nearest_onlyMethod :
    ∃ c, (ConstructIndex.build ofClassStatement).enclosingClass? onlyMethod = some c ∧
      c.node.address = [0, 0] ∧ c.node.IsAbove onlyMethod ∧
      ∀ d ∈ (ConstructIndex.build ofClassStatement).classes,
        d.node.IsAbove onlyMethod → c.byteLength ≤ d.byteLength := by
  have hfound : ((ConstructIndex.build ofClassStatement).enclosingClass? onlyMethod).map
      (fun c => c.node.address) = some [0, 0] := by decide +kernel
  obtain ⟨c, hc, haddress⟩ := Option.map_eq_some_iff.1 hfound
  obtain ⟨-, habove, hleast⟩ :=
    (ConstructIndex.enclosingClass?_nearest (by decide) (by decide)
      (ConstructIndex.isOver_build QueryLibrary.findsNodes_basic) (mem_nodes_iff.2 rfl) (by decide)
      (by decide +kernel)).2 c hc
  exact ⟨c, hc, haddress, habove, hleast⟩

end SyntaxTree

end SyntaxEdit
