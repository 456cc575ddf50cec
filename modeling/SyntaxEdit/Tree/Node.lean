/-
Syntax trees: nodes, and the places of nodes in a tree.

A node carries its type, a few marks, the byte range of its text, the field under which its parent
holds it, and its children. A place in a tree is an address: the position of each node on the way
from the root among the children of its parent. Two nodes with equal contents are still two nodes,
since their addresses differ.

* `Node.at?` — the node at an address;
* `Node.preorder` — every node with its address, parents before children and siblings in order;
* `mem_preorder_iff` — the listed nodes are those at an address, each with its own.
-/
import SyntaxEdit.Text.Basic

namespace SyntaxEdit

/-- What is known of a node beside its children. -/
structure Label where
  type : String
  /-- Whether the node stands for a rule of the grammar, not for a token written in it. -/
  named : Bool
  /-- Whether the parser supplied the node although its text is missing. -/
  missing : Bool
  /-- Whether the parser could make no sense of the text of the node. -/
  error : Bool
  /-- Whether the node can stand anywhere, as comments do. -/
  extra : Bool
  /-- The byte range of the node in the source. -/
  start : Nat
  stop : Nat
  /-- The field under which the parent holds the node. -/
  field : Option String
deriving DecidableEq

/-- A node with the nodes below it. -/
inductive Node where
  | mk (label : Label) (children : List Node)

/-- The positions to follow from the root to a node. -/
abbrev Address := List Nat

/-- A node with its address. -/
structure Located where
  address : Address
  node : Node

namespace Node

/-- What is known of a node beside its children. -/
def label : Node → Label
  | mk label _ => label

/-- The nodes directly below a node, those for tokens included. -/
def children : Node → List Node
  | mk _ children => children

@[simp] theorem label_mk (l : Label) (cs : List Node) : (mk l cs).label = l := rfl

@[simp] theorem children_mk (l : Label) (cs : List Node) : (mk l cs).children = cs := rfl

/-- The raw type of a node. -/
def type (n : Node) : String := n.label.type

/-- The offset at which the text of a node starts. -/
def start (n : Node) : Nat := n.label.start

/-- The offset at which the text of a node ends. -/
def stop (n : Node) : Nat := n.label.stop

/-- Whether a node stands for a rule of the grammar. -/
def isNamed (n : Node) : Bool := n.label.named

/-- Whether a node marks a syntax error: text without sense, or a text that is missing. -/
def isError (n : Node) : Bool := n.label.error || n.label.missing

/-- The node at an address below a node. -/
def at? : Node → Address → Option Node
  | n, [] => some n
  | n, i :: rest =>
    match n.children[i]? with
    | some child => child.at? rest
    | none => none

end Node

namespace Located

/-- The raw type of a node. -/
def type (n : Located) : String := n.node.type

/-- The offset at which the text of a node starts. -/
def start (n : Located) : Nat := n.node.start

/-- The offset at which the text of a node ends. -/
def stop (n : Located) : Nat := n.node.stop

/-- A node of a subtree as a node of the tree that has this subtree at position `i`. -/
def under (i : Nat) (n : Located) : Located := ⟨i :: n.address, n.node⟩

/-- The nodes directly below a node. -/
def children (n : Located) : List Located :=
  n.node.children.zipIdx.map fun (child, i) => ⟨n.address ++ [i], child⟩

/-- The nodes directly below a node that stand for rules of the grammar. -/
def namedChildren (n : Located) : List Located :=
  n.children.filter fun child => child.node.isNamed

/-- The first node directly below a node that is held under a field. -/
def childInField? (n : Located) (field : String) : Option Located :=
  n.children.find? fun child => child.node.label.field = some field

end Located

/-! ### Listing the nodes of a tree -/

mutual

/-- Every node of a tree, parents before children and siblings in order. -/
def Node.preorder : Node → List Located
  | .mk label children => ⟨[], .mk label children⟩ :: preorderFrom 0 children

/-- Every node of some siblings, the first of which has position `i`. -/
def preorderFrom (i : Nat) : List Node → List Located
  | [] => []
  | child :: rest => child.preorder.map (Located.under i) ++ preorderFrom (i + 1) rest

end

mutual

/-- The number of nodes of a tree. -/
def Node.size : Node → Nat
  | .mk _ children => sizeOfAll children + 1

/-- The number of nodes of some trees. -/
def sizeOfAll : List Node → Nat
  | [] => 0
  | child :: rest => child.size + sizeOfAll rest

end

mutual

theorem mem_preorder_iff (root : Node) (n : Located) :
    n ∈ root.preorder ↔ root.at? n.address = some n.node := by
  cases root with
  | mk label children =>
    obtain ⟨address, node⟩ := n
    rw [Node.preorder, List.mem_cons, mem_preorderFrom_iff]
    cases address with
    | nil =>
      simp only [Located.mk.injEq, true_and, Node.at?, Option.some.injEq]
      constructor
      · rintro (rfl | ⟨j, child, rest, place, _⟩)
        · rfl
        · cases place
      · rintro rfl
        exact Or.inl rfl
    | cons j rest =>
      simp only [Located.mk.injEq, reduceCtorEq, false_and, false_or, Node.at?, Node.children_mk]
      constructor
      · rintro ⟨k, child, rest', place, found, below⟩
        simp only [Nat.zero_add, List.cons.injEq] at place
        obtain ⟨rfl, rfl⟩ := place
        rw [found]
        exact below
      · intro h
        split at h
        · rename_i child found
          exact ⟨j, child, rest, by simp, found, h⟩
        · cases h

theorem mem_preorderFrom_iff (i : Nat) (children : List Node) (n : Located) :
    n ∈ preorderFrom i children ↔
      ∃ j child rest, n.address = (i + j) :: rest ∧ children[j]? = some child ∧
        child.at? rest = some n.node := by
  cases children with
  | nil => simp [preorderFrom]
  | cons first others =>
    rw [preorderFrom, List.mem_append, List.mem_map, mem_preorderFrom_iff]
    constructor
    · rintro (⟨⟨address, node⟩, listed, rfl⟩ | ⟨j, child, rest, place, found, below⟩)
      · exact ⟨0, first, address, by simp [Located.under], by simp,
          (mem_preorder_iff first ⟨address, node⟩).1 listed⟩
      · exact ⟨j + 1, child, rest, by rw [place, Nat.add_assoc, Nat.add_comm 1 j],
          by simpa using found, below⟩
    · rintro ⟨j, child, rest, place, found, below⟩
      cases j with
      | zero =>
        obtain rfl : first = child := by simpa using found
        refine Or.inl ⟨⟨rest, n.node⟩, (mem_preorder_iff first ⟨rest, n.node⟩).2 below, ?_⟩
        obtain ⟨address, node⟩ := n
        simp only [Nat.add_zero] at place
        simp [Located.under, place]
      | succ j =>
        exact Or.inr ⟨j, child, rest, by rw [place, Nat.add_assoc, Nat.add_comm 1 j],
          by simpa using found, below⟩

end

/-! ### Reading a listing -/

/-- The tree of a listing in which every label comes with the number of its children, parents
before children and siblings in order. -/
def Node.ofListing? (listing : List (Label × Nat)) : Option Node :=
  match listing.foldr (fun (label, count) built =>
      Node.mk label (built.take count) :: built.drop count) [] with
  | [root] => some root
  | _ => none

end SyntaxEdit
