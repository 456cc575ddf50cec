/-
The nodes that edits are about are nodes of the tree.

* `mem_nodes_of_target` — so is the node that a path names;
* `mem_nodes_of_bodyOf?`, `mem_nodes_of_targetBody` — so is the body of a node, whichever rule finds
  it;
* `mem_nodes_of_closingDelimiter?` — so is the token that closes a body.
-/
import SyntaxEdit.Edit.Target
import SyntaxEdit.Proofs.NodePaths

namespace SyntaxEdit

namespace SyntaxTree

variable {t : SyntaxTree} {n : Located} {path : Text}

/-! ### Paths -/

theorem mem_nodes_of_structuralTarget (h : t.structuralTarget path = .ok n) : n ∈ t.nodes := by
  rw [structuralTarget] at h
  split at h
  · rename_i found hfound
    cases h
    exact mem_nodes_of_resolveText? hfound
  · cases h

theorem mem_nodes_of_target {how : Addressing} (h : t.target how path = .ok n) : n ∈ t.nodes := by
  cases how with
  | structural => exact mem_nodes_of_structuralTarget h
  | semantic =>
    simp only [target, bind, Except.bind] at h
    split at h
    · cases h
    · split at h
      · exact mem_nodes_of_structuralTarget h
      · cases h
  | either =>
    simp only [target, bind, Except.bind] at h
    split at h
    · cases h
    · rename_i named _
      split at h
      · rename_i found hfound
        cases h
        cases named with
        | none => exact mem_nodes_of_resolveText? hfound
        | some m => exact mem_nodes_of_resolve? hfound
      · cases h

/-! ### Bodies -/

theorem mem_nodes_of_mem_children {parent : Located} (hparent : parent ∈ t.nodes)
    (h : n ∈ parent.children) : n ∈ t.nodes := by
  obtain ⟨i, hi⟩ := List.mem_iff_getElem?.1 h
  exact mem_nodes_of_child hparent hi

theorem mem_nodes_of_childInField? {parent : Located} {field : String} (hparent : parent ∈ t.nodes)
    (h : parent.childInField? field = some n) : n ∈ t.nodes :=
  mem_nodes_of_mem_children hparent (List.mem_of_find?_eq_some h)

theorem mem_nodes_of_mem_namedChildren {parent : Located} (hparent : parent ∈ t.nodes)
    (h : n ∈ parent.namedChildren) : n ∈ t.nodes :=
  mem_nodes_of_mem_children hparent ((List.mem_filter.1 h).1)

theorem mem_nodes_of_firstBody? {stack : List Located} (hstack : ∀ m ∈ stack, m ∈ t.nodes)
    (h : t.firstBody? stack = some n) : n ∈ t.nodes := by
  -- The stack holds nodes of the tree, as children take the place of their parent.
  fun_induction firstBody? t stack with
  | case1 => cases h
  | case2 top stack _ =>
    cases h
    exact hstack n List.mem_cons_self
  | case3 top stack _ ih =>
    refine ih (fun m hm => ?_) h
    obtain ⟨htop, hrest⟩ := List.forall_mem_cons.1 hstack
    exact (List.mem_append.1 hm).elim (mem_nodes_of_mem_children htop) (hrest m)

theorem mem_nodes_of_callbackBody? {call : Located} (hcall : call ∈ t.nodes)
    (h : t.callbackBody? call = some n) : n ∈ t.nodes := by
  simp only [callbackBody?, bind, Option.bind_eq_some_iff] at h
  obtain ⟨arguments, harguments, h⟩ := h
  obtain ⟨argument, hargument, hbody⟩ := List.exists_of_findSome?_eq_some h
  have hmem := mem_nodes_of_mem_namedChildren (mem_nodes_of_childInField? hcall harguments)
    (List.mem_reverse.1 hargument)
  exact mem_nodes_of_childInField? hmem (Option.filter_eq_some_iff.1 hbody).1

theorem mem_nodes_of_bodyByRule? {parent : Located} (hparent : parent ∈ t.nodes) {rule : BodyRule}
    (h : t.bodyByRule? parent rule = some n) : n ∈ t.nodes := by
  cases rule with
  | itself =>
    cases h
    exact hparent
  | child nodeType =>
    exact mem_nodes_of_mem_namedChildren hparent (List.mem_of_find?_eq_some h)
  | field name => exact mem_nodes_of_childInField? hparent h
  | functionBody =>
    exact mem_nodes_of_firstBody? (fun m hm => mem_nodes_of_mem_children hparent hm) h
  | callbackBody => exact mem_nodes_of_callbackBody? hparent h

/-- The body of a node is a node of the tree, whichever rule finds it. -/
theorem mem_nodes_of_bodyOf? {parent : Located} (hparent : parent ∈ t.nodes)
    (h : t.bodyOf? parent = some n) : n ∈ t.nodes := by
  rw [bodyOf?] at h
  split at h
  · split at h
    · cases h
      exact hparent
    · cases h
  · obtain ⟨rule, -, hrule⟩ := List.exists_of_findSome?_eq_some h
    exact mem_nodes_of_bodyByRule? hparent hrule

theorem mem_nodes_of_targetBody (h : t.targetBody path = .ok n) : n ∈ t.nodes := by
  simp only [targetBody, bind, Except.bind] at h
  split at h
  · cases h
  · rename_i parent hparent
    split at h
    · rename_i body hbody
      cases h
      exact mem_nodes_of_bodyOf? (mem_nodes_of_target hparent) hbody
    · cases h

theorem mem_nodes_of_closingDelimiter? {body : Located} (hbody : body ∈ t.nodes)
    (h : body.closingDelimiter? = some n) : n ∈ t.nodes :=
  mem_nodes_of_mem_children hbody
    (List.mem_of_mem_getLast? (Option.filter_eq_some_iff.1 h).1)

end SyntaxTree

end SyntaxEdit
