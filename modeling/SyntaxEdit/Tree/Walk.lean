/-
A walk through a tree with a cursor.

A cursor stands at a node and knows the way up from it: the nodes above, and behind each of them the
siblings that it has not come to.  It goes down where it can, else on to the next sibling, and else
up until there is one.

* `TreeCursor.firstChild?`, `TreeCursor.nextSibling?`, `TreeCursor.parent?` — the moves of a cursor;
* `TreeCursor.walk` — the nodes that a cursor comes to;
* `Located.preorder_eq` — a node comes before all that is below its children, child by child;
* `TreeCursor.walk_eq` — what is left to come to are the pending nodes, with all that is below them;
* `TreeCursor.walk_start` — so a walk comes to every node of a tree, in document order.
-/
import SyntaxEdit.Tree.Node

namespace SyntaxEdit

/-! ### The nodes from a node on -/

/-- A node of a subtree as a node of the tree that has this subtree at an address. -/
def Located.within (front : Address) (n : Located) : Located := ⟨front ++ n.address, n.node⟩

/-- A node and every node below it, parents before children and siblings in order. -/
def Located.preorder (n : Located) : List Located :=
  n.node.preorder.map (Located.within n.address)

theorem map_within_preorderFrom (front : Address) (i : Nat) (children : List Node) :
    (preorderFrom i children).map (Located.within front) =
      ((children.zipIdx i).map fun (child, j) => ⟨front ++ [j], child⟩).flatMap
        Located.preorder := by
  induction children generalizing i with
  | nil => simp [preorderFrom]
  | cons child rest ih =>
    have hfirst : (child.preorder.map (Located.under i)).map (Located.within front) =
        Located.preorder ⟨front ++ [i], child⟩ := by
      simp [Located.preorder, Located.within, Located.under]
    rw [preorderFrom, List.map_append, hfirst, ih (i + 1), List.zipIdx_cons, List.map_cons,
      List.flatMap_cons]

/-- A node comes before all that is below its children, child by child. -/
theorem Located.preorder_eq (n : Located) :
    n.preorder = n :: n.children.flatMap Located.preorder := by
  obtain ⟨address, label, children⟩ := n
  rw [Located.preorder, Node.preorder, List.map_cons, map_within_preorderFrom]
  simp [Located.within, Located.children]

/-- Of several nodes with all that is below them, the first node comes first, and then its children
with the others. -/
theorem flatMap_preorder_cons (n : Located) (rest : List Located) :
    (n :: rest).flatMap Located.preorder =
      n :: (n.children ++ rest).flatMap Located.preorder := by
  rw [List.flatMap_cons, Located.preorder_eq, List.flatMap_append, List.cons_append]

theorem Node.preorder_eq (n : Node) : n.preorder = Located.preorder ⟨[], n⟩ := by
  rw [Located.preorder, show Located.within [] = id from rfl, List.map_id]

/-! ### The size of a stack of nodes -/

/-- The number of nodes of some trees, those below included. -/
def stackSize : List Located → Nat
  | [] => 0
  | n :: rest => n.node.size + stackSize rest

theorem stackSize_append (first second : List Located) :
    stackSize (first ++ second) = stackSize first + stackSize second := by
  induction first with
  | nil => simp [stackSize]
  | cons n rest ih => simp [stackSize, ih, Nat.add_assoc]

theorem sum_size_zipIdx (address : Address) (children : List Node) (i : Nat) :
    stackSize ((children.zipIdx i).map fun (child, j) => ⟨address ++ [j], child⟩) =
      sizeOfAll children := by
  induction children generalizing i with
  | nil => rfl
  | cons child rest ih =>
    simp only [List.zipIdx_cons, List.map_cons, stackSize, sizeOfAll, ih (i + 1)]

/-- A node has one node more than its children have together. -/
theorem stackSize_children (n : Located) : stackSize n.children + 1 = n.node.size := by
  obtain ⟨address, node⟩ := n
  cases node with
  | mk label children =>
    rw [Node.size, ← sum_size_zipIdx address children 0]
    rfl

/-! ### Cursors -/

/-- A cursor at a node. -/
structure TreeCursor where
  node : Located
  /-- The siblings behind the node. -/
  later : List Located
  /-- The nodes above, the nearest first, each with the siblings behind it. -/
  above : List (Located × List Located)

namespace TreeCursor

/-- A cursor at a node that it takes for the root. -/
def start (n : Located) : TreeCursor := ⟨n, [], []⟩

/-- The cursor at the first child. -/
def firstChild? (c : TreeCursor) : Option TreeCursor :=
  match c.node.children with
  | [] => none
  | child :: rest => some ⟨child, rest, (c.node, c.later) :: c.above⟩

/-- The cursor at the next sibling. -/
def nextSibling? (c : TreeCursor) : Option TreeCursor :=
  match c.later with
  | [] => none
  | next :: rest => some ⟨next, rest, c.above⟩

/-- The cursor at the parent. -/
def parent? (c : TreeCursor) : Option TreeCursor :=
  match c.above with
  | [] => none
  | (parent, later) :: rest => some ⟨parent, later, rest⟩

theorem length_above_of_parent? {c parent : TreeCursor} (h : c.parent? = some parent) :
    parent.above.length < c.above.length := by
  obtain ⟨node, later, above⟩ := c
  cases above with
  | nil => cases h
  | cons entry rest =>
    cases h
    exact Nat.lt_succ_self _

/-- The cursor at the next sibling of the node, or else of the nearest node above that has one. -/
def advance? (c : TreeCursor) : Option TreeCursor :=
  match c.nextSibling? with
  | some next => some next
  | none =>
    match _h : c.parent? with
    | some parent => parent.advance?
    | none => none
termination_by c.above.length
decreasing_by exact length_above_of_parent? _h

/-- The siblings that the cursor has not come to, behind its node and behind the nodes above. -/
def pending (c : TreeCursor) : List Located :=
  c.later ++ c.above.flatMap Prod.snd

/-- The pending nodes, the first of which the cursor goes on to, if there is one. -/
theorem pending_of_advance? (c : TreeCursor) :
    (c.advance?.elim [] fun next => next.node :: next.pending) = c.pending := by
  fun_induction advance? c with
  | case1 c next hnext =>
    rw [nextSibling?] at hnext
    split at hnext
    · cases hnext
    · rename_i first rest hlater
      cases hnext
      simp [pending, hlater]
  | case2 c hnext parent hparent ih =>
    obtain ⟨node, later, above⟩ := c
    cases later with
    | cons => cases hnext
    | nil =>
      cases above with
      | nil => cases hparent
      | cons entry rest =>
        cases hparent
        simpa [pending] using ih
  | case3 c hnext hparent =>
    obtain ⟨node, later, above⟩ := c
    cases later with
    | cons => cases hnext
    | nil =>
      cases above with
      | nil => rfl
      | cons => cases hparent

/-- The cursor at the node that comes next: the first child, or else what it advances to. -/
def next? (c : TreeCursor) : Option TreeCursor :=
  match c.firstChild? with
  | some child => some child
  | none => c.advance?

/-- Going on, the children of the node come before the pending nodes. -/
theorem pending_of_next? (c : TreeCursor) :
    (c.next?.elim [] fun next => next.node :: next.pending) = c.node.children ++ c.pending := by
  rw [next?, firstChild?]
  cases hchildren : c.node.children with
  | nil => exact pending_of_advance? c
  | cons child rest => simp [pending]

/-- The nodes that a cursor comes to from its node on. -/
def walk (c : TreeCursor) : List Located :=
  match _h : c.next? with
  | some next => c.node :: next.walk
  | none => [c.node]
termination_by stackSize (c.node :: c.pending)
decreasing_by
  have hpending := pending_of_next? c
  rw [_h, Option.elim_some] at hpending
  have hsize := stackSize_children c.node
  rw [hpending, stackSize_append, stackSize]
  omega

/-- **The nodes that a cursor comes to are its node and the pending ones, with all that is
below.** -/
theorem walk_eq (c : TreeCursor) :
    c.walk = (c.node :: c.pending).flatMap Located.preorder := by
  fun_induction walk c with
  | case1 c next hnext ih =>
    rw [flatMap_preorder_cons, ← pending_of_next?, hnext, Option.elim_some, ih]
  | case2 c hnext =>
    rw [flatMap_preorder_cons, ← pending_of_next?, hnext]
    rfl

/-- A walk comes to every node of a tree, in document order. -/
theorem walk_start (n : Located) : (start n).walk = n.preorder := by
  rw [walk_eq]
  simp [start, pending]

end TreeCursor

end SyntaxEdit
