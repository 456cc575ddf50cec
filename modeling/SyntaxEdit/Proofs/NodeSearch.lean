/-
Looking for nodes by their kind.

The nodes of a kind are collected type by type, for each of the types that the pack maps to the
kind. A type is mapped once, so no node is collected twice.  The body of a function is looked for
with a stack, onto which the children of a node go in place of the node, so it is looked for in
document order.

* `LanguagePack.mem_rawTypesOf_iff`, `LanguagePack.kindOf_eq_iff` — the types of a kind, and the
  kind of a type;
* `SyntaxTree.mem_nodesOfKind_iff`, `SyntaxTree.pairwise_nodesOfKind` — which nodes are collected,
  and in which order;
* `SyntaxTree.nodesOfKind_perm` — so each node of a kind is collected once;
* `SyntaxTree.firstBody?_eq_find?` — what is looked for among the nodes on a stack and those below;
* `SyntaxTree.firstBody?_first` — the body of a function is the first below its node.
-/
import SyntaxEdit.Construct.Body
import SyntaxEdit.Language.BuiltIn
import SyntaxEdit.Proofs.NodeOrder

namespace SyntaxEdit

/-! ### The types of a kind -/

namespace LanguagePack

variable {p : LanguagePack} {kind : Kind} {rawType : String}

/-- The types that are collected for a kind are those that the pack maps to it. -/
theorem mem_rawTypesOf_iff :
    rawType ∈ p.rawTypesOf kind ↔ p.kindMap.get? rawType = some kind := by
  rw [← KeyTable.mem_entries_iff]
  simp [rawTypesOf]

/-- They stand in ascending order. -/
theorem pairwise_rawTypesOf (p : LanguagePack) (kind : Kind) :
    (p.rawTypesOf kind).Pairwise (· < ·) :=
  p.kindMap.ascending.sublist (List.filter_sublist.map Prod.fst)

/-- A type has a kind, if it is a known one, by being mapped to it. -/
theorem kindOf_eq_iff (hknown : kind ≠ .unknown) :
    p.kindOf rawType = kind ↔ p.kindMap.get? rawType = some kind := by
  rw [kindOf]
  cases p.kindMap.get? rawType with
  | none => simp [hknown.symm]
  | some other => simp

end LanguagePack

namespace SyntaxTree

variable {t : SyntaxTree} {n : Located} {kind : Kind}

/-! ### Nodes by kind -/

/-- The nodes that are collected for a kind. -/
theorem mem_nodesOfKind_iff :
    n ∈ t.nodesOfKind kind ↔
      n ∈ t.nodes ∧ n.node.isNamed = true ∧ t.pack.kindMap.get? n.type = some kind := by
  simp only [nodesOfKind, nodesOfType, List.mem_flatMap, LanguagePack.mem_rawTypesOf_iff,
    List.mem_filter, decide_eq_true_eq]
  constructor
  · rintro ⟨rawType, hkind, ⟨hn, rfl⟩, hnamed⟩
    exact ⟨hn, hnamed, hkind⟩
  · rintro ⟨hn, hnamed, hkind⟩
    exact ⟨n.type, hkind, ⟨hn, rfl⟩, hnamed⟩

/-- They stand type by type in ascending order, and in document order for each type. -/
theorem pairwise_nodesOfKind (t : SyntaxTree) (kind : Kind) :
    (t.nodesOfKind kind).Pairwise fun m n =>
      m.type < n.type ∨ m.type = n.type ∧ m.ComesBefore n := by
  rw [nodesOfKind, List.pairwise_flatMap]
  have htype {rawType : String} {n : Located}
      (h : n ∈ (t.nodesOfType rawType).filter fun n => n.node.isNamed) : n.type = rawType := by
    simpa using (List.mem_filter.1 (List.mem_filter.1 h).1).2
  constructor
  · -- Within one type the nodes keep the order of the tree; the types themselves ascend.
    intro rawType _
    refine ((t.pairwise_nodes.filter _).filter _).imp_of_mem fun {m n} hm hn h => ?_
    exact .inr ⟨(htype hm).trans (htype hn).symm, h⟩
  · refine (t.pack.pairwise_rawTypesOf kind).imp fun {first second} hlt m hm n hn => ?_
    rw [htype hm, htype hn]
    exact .inl hlt

theorem nodup_nodesOfKind (t : SyntaxTree) (kind : Kind) : (t.nodesOfKind kind).Nodup := by
  refine (t.pairwise_nodesOfKind kind).imp ?_
  rintro m n (hlt | ⟨-, hbefore⟩) rfl
  · exact String.lt_irrefl _ hlt
  · exact m.not_comesBefore_self hbefore

/-- The nodes that are collected for a kind are the named nodes of the types that the pack maps to
it, each once. -/
theorem nodesOfKind_perm (t : SyntaxTree) (kind : Kind) :
    (t.nodesOfKind kind).Perm (t.nodes.filter fun n =>
      n.node.isNamed && t.pack.kindMap.get? n.type = some kind) := by
  refine (List.perm_ext_iff_of_nodup (t.nodup_nodesOfKind kind)
    (t.nodup_nodes.filter _)).2 fun n => ?_
  simp [mem_nodesOfKind_iff]

/-- **Looking for a kind neither loses nor repeats nodes.**  A walk through a tree comes to every
node once, in document order.  So what is collected for a known kind are the named nodes of that
kind, and for the unknown one those of the types that the pack maps to it; the types stand in
ascending order, and the nodes of each in document order. -/
theorem nodesOfKind_lists_named (t : SyntaxTree) :
    ((∀ n, n ∈ t.nodes ↔ t.root.at? n.address = some n.node) ∧
      t.nodes.Pairwise Located.ComesBefore ∧ t.nodes.Nodup) ∧
    (∀ kind, kind ≠ .unknown → (t.nodesOfKind kind).Perm
      (t.nodes.filter fun n => n.node.isNamed && t.kindOf n.node = kind)) ∧
    (t.nodesOfKind .unknown).Perm
      (t.nodes.filter fun n => n.node.isNamed && t.pack.kindMap.get? n.type = some .unknown) ∧
    ∀ kind, (t.nodesOfKind kind).Nodup ∧
      (t.nodesOfKind kind).Pairwise fun m n =>
        m.type < n.type ∨ m.type = n.type ∧ m.ComesBefore n := by
  refine ⟨⟨fun n => mem_nodes_iff, t.pairwise_nodes, t.nodup_nodes⟩, fun kind hknown => ?_,
    t.nodesOfKind_perm .unknown,
    fun kind => ⟨t.nodup_nodesOfKind kind, t.pairwise_nodesOfKind kind⟩⟩
  refine (t.nodesOfKind_perm kind).trans (.of_eq (List.filter_congr fun n _ => ?_))
  have hkind : t.kindOf n.node = kind ↔ t.pack.kindMap.get? n.type = some kind :=
    LanguagePack.kindOf_eq_iff hknown
  rw [decide_eq_decide.2 hkind]

/-- A declaration of an arrow function, with another one as the default value of its parameter. -/
def arrowDeclaration : Node :=
  let block (start : Nat) : Node :=
    .mk ⟨"statement_block", true, false, false, false, start, start + 2, some "body"⟩
      [.mk ⟨"\x7b", false, false, false, false, start, start + 1, none⟩ [],
        .mk ⟨"\x7d", false, false, false, false, start + 1, start + 2, none⟩ []]
  let token (type : String) (start stop : Nat) : Node :=
    .mk ⟨type, false, false, false, false, start, stop, none⟩ []
  let name (start : Nat) (field : String) : Node :=
    .mk ⟨"identifier", true, false, false, false, start, start + 1, some field⟩ []
  let parameters (start stop : Nat) (children : List Node) : Node :=
    .mk ⟨"formal_parameters", true, false, false, false, start, stop, some "parameters"⟩ children
  let inner : Node :=
    .mk ⟨"arrow_function", true, false, false, false, 13, 21, some "right"⟩
      [parameters 13 15 [token "(" 13 14, token ")" 14 15], token "=>" 16 18, block 19]
  let default : Node :=
    .mk ⟨"assignment_pattern", true, false, false, false, 9, 21, none⟩
      [name 9 "left", token "=" 11 12, inner]
  let outer : Node :=
    .mk ⟨"arrow_function", true, false, false, false, 8, 28, some "value"⟩
      [parameters 8 22 [token "(" 8 9, default, token ")" 21 22], token "=>" 23 25, block 26]
  .mk ⟨"lexical_declaration", true, false, false, false, 0, 28, none⟩
    [token "let" 0 3,
      .mk ⟨"variable_declarator", true, false, false, false, 4, 28, none⟩
        [name 4 "name", token "=" 6 7, outer]]

/-- The tree of that declaration.  The pack counts declarators among the functions as well. -/
def ofArrowDeclaration : SyntaxTree where
  root := .mk ⟨"program", true, false, false, false, 0, 28, none⟩ [arrowDeclaration]
  broken := false
  source := "let g = (a = () => \x7b\x7d) => \x7b\x7d".toList
  pack := javascriptPack.withKinds
    [("variable_declarator", .function), ("arrow_function", .function), ("identifier", .unknown)]

/-- The arrow functions are listed before the declarator, although it is above them. -/
theorem nodesOfKind_lists_named_arrows :
    (ofArrowDeclaration.nodesOfKind .function).map Located.address =
      [[0, 1, 2], [0, 1, 2, 0, 1, 2], [0, 1]] ∧
    (ofArrowDeclaration.nodesOfKind .function).Perm (ofArrowDeclaration.nodes.filter fun n =>
      n.node.isNamed && ofArrowDeclaration.kindOf n.node = .function) ∧
    (ofArrowDeclaration.nodesOfKind .unknown).map Located.address =
      [[0, 1, 0], [0, 1, 2, 0, 1, 0]] := by
  obtain ⟨-, hknown, -, -⟩ := nodesOfKind_lists_named ofArrowDeclaration
  exact ⟨by decide +kernel, hknown .function (by decide), by decide +kernel⟩

/-! ### The body of a function -/

/-- What is looked for among the nodes on a stack and those below them. -/
theorem firstBody?_eq_find? (t : SyntaxTree) (stack : List Located) :
    t.firstBody? stack =
      (stack.flatMap Located.preorder).find? fun m => t.kindOf m.node = .body := by
  fun_induction firstBody? t stack with
  | case1 => rfl
  | case2 n stack hbody =>
    rw [flatMap_preorder_cons, List.find?_cons_of_pos (by simpa using hbody)]
  | case3 n stack hbody ih =>
    rw [flatMap_preorder_cons, List.find?_cons_of_neg (by simpa using hbody), ih]

/-- **The body of a function is the first below its node.**  The search ends, at the first node in
document order that has the kind of a body and is below the node, tokens and errors included; and it
finds none only if there is none. -/
theorem firstBody?_first (hn : n ∈ t.nodes) :
    t.bodyByRule? n .functionBody = t.firstBody? n.children ∧
    t.firstBody? n.children =
      (t.nodes.filter fun m => n.IsAbove m).find? (fun m => t.kindOf m.node = .body) ∧
    (∀ m, t.firstBody? n.children = some m ↔
      m ∈ t.nodes ∧ n.IsAbove m ∧ t.kindOf m.node = .body ∧
        ∀ other ∈ t.nodes, n.IsAbove other → t.kindOf other.node = .body →
          other = m ∨ m.ComesBefore other) ∧
    (t.firstBody? n.children = none ↔
      ∀ m ∈ t.nodes, n.IsAbove m → t.kindOf m.node ≠ .body) := by
  have hfind : t.firstBody? n.children =
      (t.nodes.filter fun m => n.IsAbove m).find? (fun m => t.kindOf m.node = .body) := by
    rw [firstBody?_eq_find?, flatMap_preorder_children hn]
  refine ⟨rfl, hfind, fun m => ?_, ?_⟩
  · rw [hfind, find?_eq_some_iff_first (t.pairwise_nodes.filter _)]
    simp [and_assoc]
  · rw [hfind, List.find?_eq_none]
    simp

/-- The body of the default value comes first, although the other one is less far down. -/
theorem firstBody?_first_defaultValue :
    ∃ body, ofArrowDeclaration.bodyByRule? ⟨[0], arrowDeclaration⟩ .functionBody = some body ∧
      body.address = [0, 1, 2, 0, 1, 2, 2] ∧
      ∀ other ∈ ofArrowDeclaration.nodes, (⟨[0], arrowDeclaration⟩ : Located).IsAbove other →
        ofArrowDeclaration.kindOf other.node = .body → other = body ∨ body.ComesBefore other := by
  have hfound : (ofArrowDeclaration.bodyByRule? ⟨[0], arrowDeclaration⟩ .functionBody).map
      Located.address = some [0, 1, 2, 0, 1, 2, 2] := by decide +kernel
  obtain ⟨body, hbody, haddress⟩ := Option.map_eq_some_iff.1 hfound
  obtain ⟨hrule, -, hfirst, -⟩ :=
    firstBody?_first (t := ofArrowDeclaration) (n := ⟨[0], arrowDeclaration⟩) (mem_nodes_iff.2 rfl)
  obtain ⟨-, -, -, hbefore⟩ := (hfirst body).1 (hrule ▸ hbody)
  exact ⟨body, hbody, haddress, hbefore⟩

end SyntaxTree

end SyntaxEdit
