/-
What a command line asks for.

* `Invocation.read` — the command of some words and its settings, or why they are refused.
-/
import SyntaxEdit.CommandLine.Arguments
import SyntaxEdit.Edit.Basic

namespace SyntaxEdit

/-- What to do with the outcome of an edit. -/
structure WriteOptions where
  /-- Do not write the file. -/
  dryRun : Bool
  /-- Show the changes. -/
  diff : Bool
  /-- Write the file even if the edit brings in syntax errors. -/
  force : Bool
deriving DecidableEq

/-- A command. -/
inductive Command where
  /-- List the semantic paths in files and folders. -/
  | paths (inputs : List Text)
  /-- Find the occurrences of a text. -/
  | locate (file text : Text)
  /-- Find the nodes that a semantic path names. -/
  | find (file path : Text)
  /-- Edit a file. -/
  | edit (file : Text) (change : Edit) (options : WriteOptions)
  /-- List the languages. -/
  | languages
deriving DecidableEq

/-- A command with the settings that all commands share. -/
structure Invocation where
  /-- The language of all files; without it each file has that of its extension. -/
  language : Option Text
  /-- The file that more packs are read from. -/
  packs : Option Text
  /-- Whether reports are printed as JSON. -/
  json : Bool
  command : Command
deriving DecidableEq

namespace Invocation

/-- The write options of a level. -/
def writeOptionsOf (g : Given) : WriteOptions :=
  ⟨g.has .dryRun, g.has .diff, g.has .force⟩

/-- The node types that a member is inserted before: those between the commas of all values. -/
def typesOf (g : Given) : List String :=
  ((g.values .before).flatMap (Text.splitOn ',')).map String.ofList

/-- A command that edits a file, which has a name. -/
def editCommand? (file : Text) (change : Edit) (g : Given) : Option Command :=
  if file = [] then none else some (.edit file change (writeOptionsOf g))

/-- The edit of a command with lines. -/
def lineEdit? (c : CommandName) (operands : List Text) : Option Edit :=
  match c, operands with
  | .addLines, [after, content] => do some (.addLines (← Decimal.readIndex? after) content)
  | .removeLines, [start, stop] => do
    some (.removeLines (← Decimal.readIndex? start) (← Decimal.readIndex? stop))
  | .updateLine, [line, content] => do some (.updateLine (← Decimal.readIndex? line) content)
  | _, _ => none

/-- The command that the levels below the program make up. -/
def commandOf? : List (CommandName × Given) → Option Command
  | [(.languages, ⟨_, []⟩)] => some .languages
  | [(.paths, g)] =>
    if g.operands = [] ∨ g.operands.contains [] then none else some (.paths g.operands)
  | [(.locate, ⟨_, [file, text]⟩)] => if file = [] then none else some (.locate file text)
  | [(.find, ⟨_, [file, path]⟩)] => if file = [] then none else some (.find file path)
  | [(.update, ⟨options, [file, path, content]⟩)] =>
    editCommand? file (.update .either path content) ⟨options, []⟩
  | [(.append, ⟨options, [file, parent, content]⟩)] =>
    editCommand? file (.append parent content) ⟨options, []⟩
  | [(.insertBefore, ⟨options, [file, parent, content]⟩)] =>
    let g : Given := ⟨options, []⟩
    if g.has .before then editCommand? file (.insertBefore parent content (typesOf g)) g else none
  | [(.delete, ⟨options, [file, path]⟩)] => editCommand? file (.delete .either path) ⟨options, []⟩
  | [(.lines, ⟨options, [file]⟩), (c, inner)] => do
    editCommand? file (← lineEdit? c inner.operands) ⟨options, []⟩
  | _ => none

/-- The value of an option on the innermost level that has it. -/
def innermost? (levels : List (CommandName × Given)) (o : OptionName) : Option Text :=
  levels.reverse.findSome? fun level => level.2.value? o

/-- The command of some words. The variable stands in for a file of packs on every level that names
none, so that it must not be empty there. -/
def read (packsVariable : Option Text) (words : List Text) : Except Refusal Invocation := do
  let levels ← readLevels .program .none false words
  if packsVariable = some [] ∧ levels.any (fun level => !level.2.has .packs) then .error .usage
  else
    match levels with
    | (_, ⟨_, []⟩) :: inner =>
      match commandOf? inner with
      | some command =>
        return {
          language := innermost? levels .language
          packs := innermost? levels .packs <|> packsVariable
          json := levels.any fun level => level.2.has .json
          command := command }
      | none => .error .usage
    | _ => .error .usage

end Invocation

end SyntaxEdit
