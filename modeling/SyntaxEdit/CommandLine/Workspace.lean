/-
The files that the command line works on.

A workspace holds the files below one folder. Paths are taken from that folder; what is outside of
it is not there.

* `Workspace.find` — what a path leads to;
* `Workspace.read` — the text of a file, or the reason why there is none;
* `Workspace.filesBelow` — the files in a folder and the folders in it;
* `sortPaths` — paths in the order of their parts;
* `Workspace.write` — the workspace with another text in a file.
-/
import SyntaxEdit.Text.Order

namespace SyntaxEdit

/-- What a file holds. -/
inductive FileContent where
  | text (t : Text)
  /-- Bytes that are no UTF-8 text. -/
  | binary
deriving DecidableEq

/-- Files by the parts of their paths. -/
structure Workspace where
  files : List (List Text × FileContent)
deriving DecidableEq

/-- What a path leads to. -/
inductive Place where
  | file (parts : List Text) (content : FileContent)
  | folder (parts : List Text)
  | missing
  /-- A file stands where the path needs a folder. -/
  | belowFile
deriving DecidableEq

namespace Workspace

/-- The workspace of files with paths as written. -/
def ofFiles (files : List (Text × FileContent)) : Workspace :=
  ⟨files.map fun (path, content) => (Text.splitOn '/' path, content)⟩

/-- The content of the file with some parts. -/
def content? (w : Workspace) (parts : List Text) : Option FileContent :=
  (w.files.find? fun entry => entry.1 = parts).map Prod.snd

/-- Whether some parts lead to a folder: the top, or one with a file below it. -/
def isFolder (w : Workspace) (parts : List Text) : Bool :=
  parts = [] || w.files.any fun entry => parts.isPrefixOf entry.1 && entry.1 ≠ parts

/-- What the remaining parts of a path lead to from a folder. -/
def findFrom (w : Workspace) (here : List Text) : List Text → Place
  | [] => .folder here
  | part :: rest =>
    if part = [] ∨ part = ['.'] then w.findFrom here rest
    else if part = ['.', '.'] then
      -- Nothing is known above the top folder.
      if here = [] then .missing else w.findFrom here.dropLast rest
    else
      let next := here ++ [part]
      match w.content? next with
      | some content => if rest = [] then .file next content else .belowFile
      | none => if w.isFolder next then w.findFrom next rest else .missing

/-- What a path leads to. An empty path, and one from the root of the file system, lead nowhere. -/
def find (w : Workspace) (path : Text) : Place :=
  match path with
  | [] => .missing
  | '/' :: _ => .missing
  | _ => w.findFrom [] (Text.splitOn '/' path)

end Workspace

/-! ### Reading -/

/-- Why nothing can be read at a place. -/
def Place.reason : Place → Text
  | file _ _ => "stream did not contain valid UTF-8".toList
  | folder _ => "Is a directory (os error 21)".toList
  | missing => "No such file or directory (os error 2)".toList
  | belowFile => "Not a directory (os error 20)".toList

namespace Workspace

/-- The text of the file at a path with the parts it is stored under, or the reason why there is
none. -/
def read (w : Workspace) (path : Text) : Except Text (List Text × Text) :=
  match w.find path with
  | .file parts (.text t) => .ok (parts, t)
  | place => .error place.reason

/-- A path with more parts behind it. -/
def joinPath (path : Text) (parts : List Text) : Text :=
  let rest := Text.joinWith ['/'] parts
  if path.getLast? = some '/' then path ++ rest else path ++ '/' :: rest

/-- The paths of the files below the folder with some parts, which `path` leads to. -/
def filesBelow (w : Workspace) (path : Text) (parts : List Text) : List Text :=
  (w.files.filter fun entry => parts.isPrefixOf entry.1).map fun entry =>
    joinPath path (entry.1.drop parts.length)

/-- The workspace with another text in a file. -/
def write (w : Workspace) (parts : List Text) (t : Text) : Workspace :=
  ⟨w.files.map fun entry => if entry.1 = parts then (parts, .text t) else entry⟩

end Workspace

/-! ### The order of paths -/

/-- The parts of a path as they are ordered: the root, a dot at the start, two dots, and names.
Other dots and empty parts do not count. -/
def sortKey (path : Text) : List Text :=
  let parts := Text.splitOn '/' path
  let start := match parts with
    | [] :: _ :: _ => [['1']]
    | ['.'] :: _ => [['2']]
    | _ => []
  start ++ (parts.filter fun part => part ≠ [] ∧ part ≠ ['.']).map fun part =>
    if part = ['.', '.'] then ['3'] else '4' :: part

/-- Whether some parts come before others, or are the same: the first part in which they differ
decides, and fewer parts come first. -/
def partsPrecede : List Text → List Text → Bool
  | [], _ => true
  | _ :: _, [] => false
  | p :: ps, q :: qs => if p = q then partsPrecede ps qs else Text.precedes p q

/-- Paths in the order of their parts. -/
def sortPaths (paths : List Text) : List Text :=
  paths.mergeSort fun a b => partsPrecede (sortKey a) (sortKey b)

end SyntaxEdit
