/-
Descriptions of what a run of the program depends on.

A description is a TOML document. It gives the text on standard input at `input`, whether output is
coloured at `colored`, the file of packs that a variable names at `packs`, the texts of the files by
their paths in the table `files`, and the syntax trees of texts in the tables `trees`: the grammar,
the text, and the nodes with the number of their children, parents before children and siblings in
order. What is not given is empty.

* `Surroundings.ofDescription?` — the surroundings that a document describes;
* `Outcome.description` — a description of the file that a run writes.
-/
import SyntaxEdit.CommandLine.Session
import SyntaxEdit.PackFile.Definition
import SyntaxEdit.Tree.Brackets

namespace SyntaxEdit

/-! ### Reading the values of a description -/

/-- A natural number. -/
def TomlValue.nat? : TomlValue → Option Nat
  | .integer (.ofNat n) => some n
  | _ => none

/-- A truth value. -/
def TomlValue.bool? : TomlValue → Option Bool
  | .boolean b => some b
  | _ => none

/-- The field under which a node is held, given by at most one item. -/
def heldUnder? : List TomlValue → Option (Option String)
  | [] => some none
  | [.string field] => some (some (String.ofList field))
  | _ => none

/-- A node with the number of its children: its type, its marks divided by blanks, its byte range,
the number of its children, and the field it is held under. -/
def listedNode? : TomlValue → Option (Label × Nat)
  | .array (.string type :: .string marks :: start :: stop :: count :: field) => do
    let marked (mark : String) : Bool := (Text.splitOn ' ' marks).contains mark.toList
    let label : Label :=
      { type := String.ofList type
        named := marked "named"
        missing := marked "missing"
        error := marked "error"
        extra := marked "extra"
        start := ← start.nat?
        stop := ← stop.nat?
        field := ← heldUnder? field }
    return (label, ← count.nat?)
  | _ => none

/-- A text with its tree under a grammar. -/
def listedTree? (value : TomlValue) : Option (Grammar × Text × Parsed) := do
  let entries ← value.entries?
  let grammar ← PackFile.nameOf? Grammar.ofName? (← lookupKey "grammar" entries)
  let listing ← (← (← lookupKey "nodes" entries).items?).mapM listedNode?
  let root ← Node.ofListing? listing
  return (grammar, ← (← lookupKey "text" entries).text?,
    ⟨root, root.preorder.any fun n => n.node.isError⟩)

/-- The files of a description by their paths. -/
def listedFiles? (value : TomlValue) : Option (List (Text × FileContent)) := do
  (← value.entries?).mapM fun (path, text) => return (path, .text (← text.text?))

/-- The surroundings that a document describes. -/
def Surroundings.ofDescription? (t : Text) : Option Surroundings := do
  let entries ← Toml.parse? t
  let files ← PackFile.withDefault? [] listedFiles? (lookupKey "files" entries)
  let trees ← PackFile.withDefault? [] (fun list => do (← list.items?).mapM listedTree?)
    (lookupKey "trees" entries)
  return {
    workspace := .ofFiles files
    input := ← PackFile.withDefault? [] TomlValue.text? (lookupKey "input" entries)
    parser := .ofTrees trees
    colored := ← PackFile.withDefault? false TomlValue.bool? (lookupKey "colored" entries)
    packsVariable := ← PackFile.optional? TomlValue.text? (lookupKey "packs" entries) }

/-- A description of the file that a run writes; empty if there is none. -/
def Outcome.description (o : Outcome) : Text :=
  match o.written with
  | none => []
  | some (parts, t) =>
    "[files]\n".toList ++ JsonValue.quote (Text.joinWith ['/'] parts) ++ " = ".toList ++
      JsonValue.quote t ++ ['\n']

end SyntaxEdit
