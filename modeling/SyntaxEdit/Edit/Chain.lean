/-
Chains of edits from one first text.

An editor holds the tree of the current text and the first text of its chain. An edit makes a new
editor and leaves the old one as it is, so that several chains can go on from one editor.

* `Editor.start`, `Editor.ofText` — an editor for a tree, and for a text under a pack;
* `Editor.edit` — the editor after an edit;
* `Editor.run` — the editor after several edits, those that fail left out;
* `Editor.validate` — whether the chain has brought in syntax errors;
* `Editor.diff`, `Editor.hunks` — the changes since the first text.
-/
import SyntaxEdit.Diff.Unified
import SyntaxEdit.Edit.Basic

namespace SyntaxEdit

/-- The tree of the current text, and the first text of the chain. -/
structure Editor where
  tree : SyntaxTree
  firstText : Text

namespace Editor

/-- A new chain from a tree. -/
def start (tree : SyntaxTree) : Editor :=
  ⟨tree, tree.source⟩

/-- A new chain from a text under a pack. -/
def ofText (parser : Parser) (pack : LanguagePack) (t : Text)
    (queries : QueryLibrary := QueryLibrary.basic) : Editor :=
  start (.parse parser pack t queries)

/-- The current text. -/
def text (e : Editor) : Text := e.tree.source

/-- The pack of the language that is edited. -/
def pack (e : Editor) : LanguagePack := e.tree.pack

/-- Whether the current text is not the first one. -/
def isModified (e : Editor) : Bool :=
  e.firstText ≠ e.text

/-- The chain with another current text. -/
def withText (parser : Parser) (e : Editor) (t : Text) : Editor :=
  { e with tree := .parse parser e.pack t e.tree.queries }

/-- The chain after an edit. -/
def edit (parser : Parser) (e : Editor) (change : Edit) : Except EditError Editor := do
  return e.withText parser (← change.textAfter e.tree)

/-- The chain after an edit, as it was if the edit fails. -/
def editOrStay (parser : Parser) (e : Editor) (change : Edit) : Editor :=
  match e.edit parser change with
  | .ok next => next
  | .error _ => e

/-- The chain after several edits, those that fail left out. -/
def run (parser : Parser) (e : Editor) (changes : List Edit) : Editor :=
  changes.foldl (editOrStay parser) e

/-- The unified diff since the first text, under a label. -/
def diff (e : Editor) (label : Text) (engine : DiffEngine := lineDiff) : Text :=
  unifiedDiff e.firstText e.text label engine

/-- The number of hunks since the first text. -/
def hunks (e : Editor) (engine : DiffEngine := lineDiff) : Nat :=
  hunkCount e.firstText e.text engine

/-- The nodes of the current text that mark syntax errors must not be more than those of the first
text. -/
def validate (parser : Parser) (e : Editor) : Except EditError Unit :=
  match e.tree.errorNodes with
  | [] => .ok ()
  | first :: rest =>
    let count := rest.length + 1
    let baseline :=
      (SyntaxTree.parse parser e.pack e.firstText e.tree.queries).errorNodes.length
    if count ≤ baseline then .ok ()
    else .error (.syntaxErrorsIntroduced (count - baseline) (first.startPosition.row + 1)
      (first.startPosition.column + 1))

end Editor

end SyntaxEdit
