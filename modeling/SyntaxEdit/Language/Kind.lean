/-
What kinds of constructs there are across languages, and how the body of a construct is found.

* `Kind` — the kind that a raw node type stands for;
* `BodyRule` — one way to find the body of a construct.
-/

namespace SyntaxEdit

/-- The kind of construct that a raw node type stands for, whatever the language. -/
inductive Kind where
  | classType
  | interface
  | constructor
  | method
  | function
  | property
  | body
  | block
  | unknown
deriving DecidableEq

namespace Kind

/-- All kinds. -/
def all : List Kind :=
  [classType, interface, constructor, method, function, property, body, block, unknown]

/-- The lowercase name of a kind. -/
def name : Kind → String
  | classType => "class"
  | interface => "interface"
  | constructor => "constructor"
  | method => "method"
  | function => "function"
  | property => "property"
  | body => "body"
  | block => "block"
  | unknown => "unknown"

/-- The kind with a name. -/
def ofName? (s : String) : Option Kind :=
  all.find? fun k => k.name = s

theorem ofName?_name (k : Kind) : ofName? k.name = some k := by
  cases k <;> decide

end Kind

/-- A way to find the body of a construct. The rules of a node type are tried in order. -/
inductive BodyRule where
  /-- The node is its own body. -/
  | itself
  /-- The first named child of a type. -/
  | child (nodeType : String)
  /-- The child in a field. -/
  | field (name : String)
  /-- The first node below that has the kind of a body. -/
  | functionBody
  /-- The body of the last argument of a call that has one. -/
  | callbackBody
deriving DecidableEq

end SyntaxEdit
