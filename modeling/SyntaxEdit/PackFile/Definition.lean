/-
Pack files: definitions of language packs as a TOML document gives them.

* `PackDefinition`, `PackFile` — the definitions of a file, with the values as written;
* `PackFile.ofToml?` — the file that the root table of a document denotes.

Keys that are not known are passed over. A structure may also be written as an array of its fields
in their order, and a name as a table with that name as its only key and nothing at it.
-/
import SyntaxEdit.Language.Pack
import SyntaxEdit.Toml.Document

namespace SyntaxEdit

/-- A definition of a pack. What is not given comes from the pack that it extends. -/
structure PackDefinition where
  language : Text
  /-- The pack that the definition starts from. -/
  base : Option Text
  grammar : Option Grammar
  extensions : List Text
  queries : PerCategory (Option Text)
  kindMap : KeyTable Kind
  bodyMap : KeyTable (List BodyRule)
  stringUnwrap : Option Text
  indentUnit : Option Text
deriving DecidableEq

/-- The definitions of a file, with the file's name and description of itself. -/
structure PackFile where
  name : Option Text
  description : Option Text
  definitions : List PackDefinition
deriving DecidableEq

namespace PackFile

/-! ### Reading values of a given shape -/

/-- A value that may be missing, read if it is there. -/
def optional? {α : Type} (read : TomlValue → Option α) : Option TomlValue → Option (Option α)
  | none => some none
  | some value => (read value).map some

/-- A value that may be missing, read if it is there, and taken for `missing` otherwise. -/
def withDefault? {α : Type} (missing : α) (read : TomlValue → Option α) :
    Option TomlValue → Option α
  | none => some missing
  | some value => read value

/-- One of a few names. -/
def nameOf? {α : Type} (ofName? : String → Option α) : TomlValue → Option α
  | .string s => ofName? (String.ofList s)
  | .table [(key, .table [])] => ofName? (String.ofList key)
  | .table [(key, .array [])] => ofName? (String.ofList key)
  | _ => none

/-- An array of strings. -/
def texts? (value : TomlValue) : Option (List Text) := do
  (← value.items?).mapM TomlValue.text?

/-- A table with a value of one shape at every key. A date is none. -/
def keyTable? {α : Type} (read : TomlValue → Option α) : TomlValue → Option (KeyTable α)
  | .table entries => do
    some (.ofList (← entries.mapM fun (key, value) => do some (String.ofList key, ← read value)))
  | _ => none

/-- A body rule without its fields. -/
def plainRule? (rule : Text) : Option BodyRule :=
  if rule = "self".toList then some .itself
  else if rule = "function-body".toList then some .functionBody
  else if rule = "call-callback-body".toList then some .callbackBody
  else none

/-- A body rule: a table with the rule's name at `rule`, or an array that starts with it. -/
def rule? : TomlValue → Option BodyRule
  | .array (.string rule :: fields) =>
    match plainRule? rule with
    | some r => some r
    | none =>
      match fields with
      | [.string field] =>
        if rule = "child".toList then some (.child (String.ofList field))
        else if rule = "field".toList then some (.field (String.ofList field))
        else none
      | _ => none
  | .table entries => do
    let rule ← (← lookupKey "rule" entries).text?
    match plainRule? rule with
    | some r => some r
    | none =>
      if rule = "child".toList then
        some (.child (String.ofList (← (← lookupKey "node_type" entries).text?)))
      else if rule = "field".toList then
        some (.field (String.ofList (← (← lookupKey "name" entries).text?)))
      else none
  | _ => none

/-- The rules of a node type. -/
def rules? (value : TomlValue) : Option (List BodyRule) := do
  (← value.items?).mapM rule?

/-- The queries of a definition. -/
def queries? : TomlValue → Option (PerCategory (Option Text))
  | .array [a, b, c, d] => do
    some ⟨some (← a.text?), some (← b.text?), some (← c.text?), some (← d.text?)⟩
  | value => do
    let entries ← value.entries?
    let read (key : String) := optional? TomlValue.text? (lookupKey key entries)
    some ⟨← read "classes", ← read "methods", ← read "properties", ← read "blocks"⟩

/-- A definition of a pack. Only its language has to be given. -/
def definition? (value : TomlValue) : Option PackDefinition := do
  let entries ← value.entries?
  let valueAt (key : String) := lookupKey key entries
  let definition : PackDefinition := {
    language := ← (← valueAt "language").text?
    base := ← optional? TomlValue.text? (valueAt "extends")
    grammar := ← optional? (nameOf? Grammar.ofName?) (valueAt "grammar")
    extensions := ← withDefault? [] texts? (valueAt "extensions")
    queries := ← withDefault? ⟨none, none, none, none⟩ queries? (valueAt "queries")
    kindMap := ← withDefault? .empty (keyTable? (nameOf? Kind.ofName?)) (valueAt "kind_map")
    bodyMap := ← withDefault? .empty (keyTable? rules?) (valueAt "body_map")
    stringUnwrap := ← optional? TomlValue.text? (valueAt "string_unwrap")
    indentUnit := ← optional? TomlValue.text? (valueAt "indent_unit") }
  some definition

/-- The name and the description that a file gives of itself. -/
def about? : TomlValue → Option (Option Text × Option Text)
  | .array [name, description] => do some (some (← name.text?), some (← description.text?))
  | value => do
    let entries ← value.entries?
    let name ← optional? TomlValue.text? (lookupKey "name" entries)
    let description ← optional? TomlValue.text? (lookupKey "description" entries)
    some (name, description)

/-- The pack file that the root table of a document denotes. -/
def ofToml? (entries : List (Text × TomlValue)) : Option PackFile := do
  let (name, description) ← withDefault? (none, none) about? (lookupKey "meta" entries)
  let packs := lookupKey "packs" entries
  let definitions ← withDefault? [] (fun v => do (← v.items?).mapM definition?) packs
  some ⟨name, description, definitions⟩

end PackFile

end SyntaxEdit
