/-
Reports on a file, for callers that pass results on. Lines and columns count from 1.

* `PathsReport` — the semantic paths of a file, sorted;
* `LocateReport` — the occurrences of a text;
* `FindReport` — the nodes that a semantic path names;
* `EditReport` — the outcome of an edit.
-/
import SyntaxEdit.Construct.Resolution
import SyntaxEdit.Report.Json
import SyntaxEdit.Text.Order
import SyntaxEdit.Tree.Occurrence

namespace SyntaxEdit

/-! ### Semantic paths -/

/-- The semantic paths of a file. -/
structure PathsReport where
  file : Text
  language : Text
  paths : List Text
deriving DecidableEq

namespace PathsReport

/-- The report on some paths, which are sorted. -/
def ofPaths (file language : Text) (paths : List Text) : PathsReport :=
  ⟨file, language, sortTexts paths⟩

/-- The report as a JSON value. -/
def toJson (r : PathsReport) : JsonValue :=
  .object [("file", .string r.file), ("language", .string r.language),
    ("totalPaths", .number r.paths.length), ("paths", .ofTexts r.paths)]

end PathsReport

/-! ### Occurrences -/

/-- An occurrence of a text, with the path of its smallest node. -/
structure LocateMatch where
  path : Text
  line : Nat
  column : Nat
  text : Text
deriving DecidableEq

/-- The occurrences of a text in a file. -/
structure LocateReport where
  file : Text
  searchText : Text
  language : Text
  found : List LocateMatch
deriving DecidableEq

namespace LocateReport

/-- The report on some occurrences. -/
def ofOccurrences (file searchText language : Text) (occurrences : List Occurrence) :
    LocateReport :=
  ⟨file, searchText, language,
    occurrences.map fun o => ⟨o.path.render, o.row + 1, o.column + 1, o.text⟩⟩

/-- An occurrence as a JSON value. -/
def matchJson (m : LocateMatch) : JsonValue :=
  .object [("path", .string m.path), ("line", .number m.line), ("column", .number m.column),
    ("text", .string m.text)]

/-- The report as a JSON value. -/
def toJson (r : LocateReport) : JsonValue :=
  .object [("file", .string r.file), ("searchText", .string r.searchText),
    ("language", .string r.language), ("totalMatches", .number r.found.length),
    ("matches", .array (r.found.map matchJson))]

end LocateReport

/-! ### Nodes by semantic path -/

/-- A node that a semantic path names. -/
structure FindMatch where
  path : Text
  kind : Kind
  name : Text
  description : Text
  line : Nat
  column : Nat
deriving DecidableEq

/-- The nodes that a semantic path names in a file. -/
structure FindReport where
  file : Text
  path : Text
  language : Text
  found : List FindMatch
deriving DecidableEq

namespace FindReport

/-- The report on some nodes. -/
def ofMatches (file path language : Text) (found : List SemanticMatch) : FindReport :=
  ⟨file, path, language, found.map fun m =>
    ⟨m.path.render, m.kind, m.name, m.description, m.startPosition.row + 1,
      m.startPosition.column + 1⟩⟩

/-- A node as a JSON value. -/
def matchJson (m : FindMatch) : JsonValue :=
  .object [("path", .string m.path), ("kind", .string m.kind.name.toList), ("name", .string m.name),
    ("description", .string m.description), ("line", .number m.line), ("column", .number m.column)]

/-- The report as a JSON value. -/
def toJson (r : FindReport) : JsonValue :=
  .object [("file", .string r.file), ("path", .string r.path), ("language", .string r.language),
    ("totalMatches", .number r.found.length), ("matches", .array (r.found.map matchJson))]

end FindReport

/-! ### Edits -/

/-- The outcome of an edit. -/
structure EditReport where
  file : Text
  path : Text
  action : Text
  success : Bool
  message : Text
deriving DecidableEq

/-- The report as a JSON value. -/
def EditReport.toJson (r : EditReport) : JsonValue :=
  .object [("file", .string r.file), ("path", .string r.path), ("action", .string r.action),
    ("success", .bool r.success), ("message", .string r.message)]

end SyntaxEdit
