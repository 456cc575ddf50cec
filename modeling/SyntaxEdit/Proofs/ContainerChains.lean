/-
Classes that stand one in the other around a node.

Whether a node stands in classes of given names is looked up from the innermost name outwards, each
time going on from the smallest class of that name, and never going back.  No chain of classes is
missed by that: the smallest class can take the place of any other in a chain.  If the two have one
range, each may enclose the other, and then they change places in the whole chain.

* `range_of_byteLength_le` — the shorter of two classes around a node lies in the longer one;
* `isChain_map_swap` — two classes of one name and one range change places in a chain;
* `exists_chain_of_range` — a class in place of a larger one of the same name;
* `of_enclosingClassNamed?` — what is found for a name;
* `isInsideInner_iff`, `isInside_iff_exists_chain` — a node stands in classes of some names exactly
  if there is a chain of such classes around it.
-/
import Mathlib.Data.List.Chain
import Mathlib.Logic.Equiv.Basic
import SyntaxEdit.Proofs.EnclosingClasses

namespace SyntaxEdit

namespace ConstructIndex

variable {t : SyntaxTree} {index : ConstructIndex} {n : Located} {c d : NamedConstruct}

/-! ### Two classes of one name -/

/-- Classes of an index are different if their nodes are. -/
theorem IsOver.encloses_iff (hindex : index.IsOver t) (hc : c ∈ index.classes)
    (hd : d ∈ index.classes) :
    c.node.encloses d.node = true ↔
      c ≠ d ∧ c.node.start ≤ d.node.start ∧ d.node.stop ≤ c.node.stop := by
  rw [Located.encloses_iff]
  refine and_congr_left fun _ => not_congr ⟨fun h => ?_, fun h => by rw [h]⟩
  exact List.inj_on_of_nodup_map hindex.nodup hc hd h

/-- The shorter of two classes around a node lies in the longer one. -/
theorem range_of_byteLength_le (hnested : t.HasNestedChildren) (hordered : t.HasOrderedSiblings)
    (hindex : index.IsOver t) (hlength : n.start < n.stop) (hc : c ∈ index.classes)
    (hd : d ∈ index.classes) (hcn : c.node.encloses n = true) (hdn : d.node.encloses n = true)
    (hle : c.byteLength ≤ d.byteLength) :
    d.node.start ≤ c.node.start ∧ c.node.stop ≤ d.node.stop := by
  obtain ⟨-, hstart, hstop⟩ := Located.encloses_iff.1 hcn
  obtain ⟨-, hstart', hstop'⟩ := Located.encloses_iff.1 hdn
  have hcmem := hindex.mem_nodes c hc
  have hdmem := hindex.mem_nodes d hd
  -- Both have the bytes of the node, so one lies in the other.
  rcases SyntaxTree.prefix_or_prefix_of_overlap hnested hordered hcmem hdmem (by omega) (by omega)
    with hway | hway
  · obtain ⟨hleft, hright⟩ := SyntaxTree.range_of_isPrefix hnested hcmem hdmem hway
    simp only [NamedConstruct.byteLength] at hle
    omega
  · exact SyntaxTree.range_of_isPrefix hnested hdmem hcmem hway

/-- Two classes of one name and one range can be told apart by nothing but their nodes. -/
theorem swap_keeps [DecidableEq NamedConstruct] (hc : c ∈ index.classes) (hd : d ∈ index.classes)
    (hname : c.name = d.name) (hstart : c.node.start = d.node.start)
    (hstop : c.node.stop = d.node.stop) {e : NamedConstruct} (he : e ∈ index.classes) :
    Equiv.swap c d e ∈ index.classes ∧ (Equiv.swap c d e).name = e.name ∧
      (Equiv.swap c d e).node.start = e.node.start ∧
      (Equiv.swap c d e).node.stop = e.node.stop := by
  rw [Equiv.swap_apply_def]
  split
  · rename_i hec
    subst hec
    exact ⟨hd, hname.symm, hstart.symm, hstop.symm⟩
  · split
    · rename_i hed
      subst hed
      exact ⟨hc, hname, hstart, hstop⟩
    · exact ⟨he, rfl, rfl, rfl⟩

/-- So a chain stays one if the two change places in it. -/
theorem isChain_map_swap [DecidableEq NamedConstruct] (hindex : index.IsOver t)
    (hc : c ∈ index.classes) (hd : d ∈ index.classes) (hname : c.name = d.name)
    (hstart : c.node.start = d.node.start) (hstop : c.node.stop = d.node.stop)
    {chain : List NamedConstruct} (hmem : ∀ e ∈ chain, e ∈ index.classes)
    (hchain : chain.IsChain fun inner outer => outer.node.encloses inner.node = true) :
    (chain.map (Equiv.swap c d)).IsChain fun inner outer =>
      outer.node.encloses inner.node = true := by
  rw [List.isChain_map]
  refine hchain.imp_of_mem_imp fun inner outer hinner houter h => ?_
  obtain ⟨hin, -, hinstart, hinstop⟩ := swap_keeps hc hd hname hstart hstop (hmem inner hinner)
  obtain ⟨hout, -, houtstart, houtstop⟩ := swap_keeps hc hd hname hstart hstop (hmem outer houter)
  rw [hindex.encloses_iff (hmem outer houter) (hmem inner hinner)] at h
  rw [hindex.encloses_iff hout hin, hinstart, hinstop, houtstart, houtstop]
  exact ⟨(Equiv.swap c d).injective.ne h.1, h.2⟩

/-- **A smaller class of the same name can take the place of a class** at the inner end of a chain,
which then goes on with classes of the same names. -/
theorem exists_chain_of_range (hindex : index.IsOver t) (hc : c ∈ index.classes)
    (hname : c.name = d.name) (hrange : d.node.start ≤ c.node.start ∧ c.node.stop ≤ d.node.stop)
    {chain : List NamedConstruct} (hmem : ∀ e ∈ d :: chain, e ∈ index.classes)
    (hchain : (d :: chain).IsChain fun inner outer => outer.node.encloses inner.node = true) :
    ∃ others : List NamedConstruct,
      others.map NamedConstruct.name = chain.map NamedConstruct.name ∧
      (∀ e ∈ others, e ∈ index.classes) ∧
      (c :: others).IsChain fun inner outer => outer.node.encloses inner.node = true := by
  obtain ⟨hd, hrest⟩ := List.forall_mem_cons.1 hmem
  by_cases hsame : c.node.start = d.node.start ∧ c.node.stop = d.node.stop
  · -- The chain may go on with the very class that takes the place.
    classical
    obtain ⟨hstart, hstop⟩ := hsame
    refine ⟨chain.map (Equiv.swap c d), ?_, fun e he => ?_, ?_⟩
    · rw [List.map_map]
      exact List.map_congr_left fun e he =>
        (swap_keeps hc hd hname hstart hstop (hrest e he)).2.1
    · obtain ⟨e', he', rfl⟩ := List.mem_map.1 he
      exact (swap_keeps hc hd hname hstart hstop (hrest e' he')).1
    · have hswapped := isChain_map_swap hindex hc hd hname hstart hstop hmem hchain
      rwa [List.map_cons, Equiv.swap_apply_right] at hswapped
  · -- The class is strictly smaller, so what encloses the larger one is neither of them.
    refine ⟨chain, rfl, hrest, ?_⟩
    cases chain with
    | nil => exact List.isChain_singleton c
    | cons e chain =>
      have he := hrest e List.mem_cons_self
      obtain ⟨henclosed, hchain'⟩ := List.isChain_cons_cons.1 hchain
      obtain ⟨-, hstart, hstop⟩ := (hindex.encloses_iff he hd).1 henclosed
      refine List.isChain_cons_cons.2 ⟨(hindex.encloses_iff he hc).2 ⟨?_, ?_, ?_⟩, hchain'⟩
      · rintro rfl
        omega
      · omega
      · omega

/-! ### Chains -/

theorem of_enclosingClassNamed? {name : Text} (h : index.enclosingClassNamed? name n = some c) :
    (c ∈ index.classes ∧ c.name = name ∧ c.node.encloses n = true) ∧
      ∀ d ∈ index.classes, d.name = name → d.node.encloses n = true →
        c.byteLength ≤ d.byteLength := by
  obtain ⟨hc, hfits, hleast⟩ := of_shortest?_filter h
  rw [Bool.and_eq_true, decide_eq_true_eq] at hfits
  refine ⟨⟨hc, hfits⟩, fun d hd hname henclosing => hleast d hd ?_⟩
  rw [Bool.and_eq_true, decide_eq_true_eq]
  exact ⟨hname, henclosing⟩

theorem exists_enclosingClassNamed? (hd : d ∈ index.classes) (h : d.node.encloses n = true) :
    ∃ c, index.enclosingClassNamed? d.name n = some c := by
  refine Option.ne_none_iff_exists'.1 fun hnone => ?_
  exact absurd (by simp [h]) (shortest?_filter_eq_none_iff.1 hnone d hd)

/-- The names looked up from the innermost outwards: what is found is a chain, and any chain is as
good as what is found. -/
theorem isInsideInner_iff (hnested : t.HasNestedChildren) (hordered : t.HasOrderedSiblings)
    (hindex : index.IsOver t) (hlength : n.start < n.stop) (names : List Text) :
    index.isInsideInner names n = true ↔
      ∃ chain : List NamedConstruct, chain.map NamedConstruct.name = names ∧
        (∀ c ∈ chain, c ∈ index.classes) ∧
        (n :: chain.map NamedConstruct.node).IsChain fun inner outer =>
          outer.encloses inner = true := by
  induction names generalizing n with
  | nil => exact ⟨fun _ => ⟨[], rfl, by simp, List.isChain_singleton n⟩, fun _ => rfl⟩
  | cons name outer ih =>
    -- A class around the node has the bytes of the node.
    have hgrows : ∀ c : NamedConstruct, c.node.encloses n = true → c.node.start < c.node.stop := by
      intro c hc
      obtain ⟨-, hstart, hstop⟩ := Located.encloses_iff.1 hc
      omega
    rw [isInsideInner]
    constructor
    · intro h
      split at h
      · rename_i c hfound
        obtain ⟨⟨hc, hname, henclosing⟩, -⟩ := of_enclosingClassNamed? hfound
        obtain ⟨chain, hnames, hmem, hchain⟩ := (ih (hgrows c henclosing)).1 h
        exact ⟨c :: chain, by rw [List.map_cons, hname, hnames], List.forall_mem_cons.2 ⟨hc, hmem⟩,
          List.isChain_cons_cons.2 ⟨henclosing, hchain⟩⟩
      · cases h
    · rintro ⟨chain, hnames, hmem, hchain⟩
      cases chain with
      | nil => cases hnames
      | cons d chain =>
        obtain ⟨rfl, houter⟩ := List.cons.inj hnames
        obtain ⟨henclosing, hrest⟩ := List.isChain_cons_cons.1 hchain
        have hd := hmem d List.mem_cons_self
        obtain ⟨c, hfound⟩ := exists_enclosingClassNamed? hd henclosing
        obtain ⟨⟨hc, hname, henclosing'⟩, hleast⟩ := of_enclosingClassNamed? hfound
        have hrange := range_of_byteLength_le hnested hordered hindex hlength hc hd henclosing'
          henclosing (hleast d hd rfl henclosing)
        rw [← List.map_cons, List.isChain_map] at hrest
        obtain ⟨others, hothers, hmem', hchain'⟩ :=
          exists_chain_of_range hindex hc hname hrange hmem hrest
        simp only [hfound]
        refine (ih (hgrows c henclosing')).2 ⟨others, hothers.trans houter, hmem', ?_⟩
        rwa [← List.map_cons, List.isChain_map]

/-- Whether classes of an index stand one in the other around a node, the outermost first. -/
def IsChainAround (index : ConstructIndex) (chain : List NamedConstruct) (n : Located) : Prop :=
  (∀ c ∈ chain, c ∈ index.classes) ∧
    (chain.map NamedConstruct.node ++ [n]).IsChain fun outer inner => outer.encloses inner = true

/-- What stands in classes of some names stands in those of the last of these names. -/
theorem isInside_of_append {leading containers : List Text}
    (h : index.isInside (leading ++ containers) n = true) : index.isInside containers n = true := by
  -- Containers are checked from the innermost on, so the leading ones are checked last.
  have hinner : ∀ (inner outer : List Text) (m : Located),
      index.isInsideInner (inner ++ outer) m = true → index.isInsideInner inner m = true := by
    intro inner outer
    induction inner with
    | nil => exact fun _ _ => rfl
    | cons name inner ih =>
      intro m hm
      rw [List.cons_append, isInsideInner] at hm
      rw [isInsideInner]
      split at hm
      · exact ih _ hm
      · cases hm
  rw [isInside, List.reverse_append] at h
  exact hinner _ _ n h

/-- A path that names a node still names it without some leading containers. -/
theorem names_of_append {leading containers : List Text} {own : Text}
    (h : index.Names (.member (leading ++ containers) own) n) :
    index.Names (SemanticPath.ofParts containers own) n := by
  obtain ⟨c, hc, hnode, hname, hinside⟩ := h
  cases containers with
  | nil => exact .inl ⟨c, List.mem_append_right _ hc, hnode, hname⟩
  | cons container others => exact ⟨c, hc, hnode, hname, isInside_of_append hinside⟩

/-- **Looking for containers is complete.**  In every index of a tree with nested ranges, a node
that is no empty text stands in classes of some names exactly if there is a chain of such classes
around it, each in the one before; and what a path matches is matched without its leading
containers. -/
theorem isInside_iff_exists_chain (hnested : t.HasNestedChildren)
    (hordered : t.HasOrderedSiblings) (hindex : index.IsOver t) (hlength : n.start < n.stop) :
    (∀ containers, index.isInside containers n = true ↔
      ∃ chain : List NamedConstruct, chain.map NamedConstruct.name = containers ∧
        index.IsChainAround chain n) ∧
      ∀ leading containers own p,
        (∃ m ∈ index.resolve (.member (leading ++ containers) own), m.path = p) →
          ∃ m ∈ index.resolve (SemanticPath.ofParts containers own), m.path = p := by
  refine ⟨fun containers => ?_, fun leading containers own p => ?_⟩
  · -- The innermost class is looked for first, so chains are turned around.
    have hreverse : ∀ chain : List NamedConstruct,
        (n :: (chain.reverse.map NamedConstruct.node)).IsChain (fun inner outer =>
          outer.encloses inner = true) ↔
        (chain.map NamedConstruct.node ++ [n]).IsChain fun outer inner =>
          outer.encloses inner = true := by
      intro chain
      rw [← List.isChain_reverse]
      simp
    rw [isInside, isInsideInner_iff hnested hordered hindex hlength]
    constructor
    · rintro ⟨chain, hnames, hmem, hchain⟩
      refine ⟨chain.reverse, ?_, fun c hc => hmem c (List.mem_reverse.1 hc), ?_⟩
      · rw [List.map_reverse, hnames, List.reverse_reverse]
      · rwa [← hreverse, List.reverse_reverse]
    · rintro ⟨chain, rfl, hmem, hchain⟩
      exact ⟨chain.reverse, List.map_reverse, fun c hc => hmem c (List.mem_reverse.1 hc),
        (hreverse chain).2 hchain⟩
  · rw [exists_mem_resolve_iff, exists_mem_resolve_iff]
    rintro ⟨m, hnames, hpath⟩
    exact ⟨m, names_of_append hnames, hpath⟩

open SyntaxTree (ofClassStatement classStatement classWithMethod onlyMethod)

/-- An index in which a class and its statement, on one range, have one name. -/
def ofEqualRanges : ConstructIndex where
  tree := ofClassStatement
  classes := [⟨⟨[0], classStatement⟩, "É".toList⟩, ⟨⟨[0, 0], classWithMethod⟩, "É".toList⟩]
  methods := [⟨onlyMethod, "f".toList⟩]
  properties := []
  blocks := []

/-- Each of the two is around the other, so the method is in as many classes as are asked for. -/
theorem isInside_iff_exists_chain_equalRanges :
    (∃ chain : List NamedConstruct,
      chain.map NamedConstruct.name = ["É".toList, "É".toList, "É".toList] ∧
        ofEqualRanges.IsChainAround chain onlyMethod) ∧
      ∃ m ∈ ofEqualRanges.resolve (.member ["É".toList] "f".toList),
        m.path = ofClassStatement.pathOf onlyMethod := by
  have hover : ofEqualRanges.IsOver ofClassStatement := by
    refine ⟨fun c hc => ?_, by decide⟩
    obtain rfl | rfl : c = ⟨⟨[0], classStatement⟩, "É".toList⟩ ∨
        c = ⟨⟨[0, 0], classWithMethod⟩, "É".toList⟩ := by simpa [ofEqualRanges] using hc
    · exact SyntaxTree.mem_nodes_iff.2 rfl
    · exact SyntaxTree.mem_nodes_iff.2 rfl
  have hinside : ofEqualRanges.isInside ["É".toList, "É".toList, "É".toList] onlyMethod = true := by
    decide
  have hnames : ofEqualRanges.Names (.member ["É".toList, "É".toList, "É".toList] "f".toList)
      onlyMethod := ⟨⟨onlyMethod, "f".toList⟩, by simp [ofEqualRanges], rfl, rfl, hinside⟩
  obtain ⟨hchain, hdrop⟩ :=
    isInside_iff_exists_chain (n := onlyMethod) (by decide) (by decide) hover (by decide)
  exact ⟨(hchain _).1 hinside, hdrop ["É".toList, "É".toList] ["É".toList] _ _
    (exists_mem_resolve_iff.2 ⟨onlyMethod, hnames, rfl⟩)⟩

end ConstructIndex

end SyntaxEdit
