/-
Unified diffs between two texts.

* `unifiedDiff` — the diff as a text; equal texts have an empty one;
* `hunkCount` — the number of its hunks.
-/
import SyntaxEdit.Diff.Hunk

namespace SyntaxEdit

/-- The character that marks what happens to a line. -/
def RunKind.sign : RunKind → Char
  | kept => ' '
  | deleted => '-'
  | inserted => '+'

/-- Whether a line ends with a line break. -/
def endsLine (line : Text) : Bool :=
  match line.getLast? with
  | some c => isBreak c
  | none => false

/-- A line of a diff. A line without a break is marked as such. -/
def renderDiffLine (kind : RunKind) (line : Text) : Text :=
  kind.sign :: line ++
    if endsLine line then [] else "\n\\ No newline at end of file\n".toList

/-- A hunk with its header. -/
def Hunk.render (h : Hunk) : Text :=
  h.header ++ '\n' :: h.lines.flatMap fun (kind, line) => renderDiffLine kind line

/-- The lines that name the two files of a diff. -/
def diffHeader (label : Text) : Text :=
  "--- a/".toList ++ label ++ "\n+++ b/".toList ++ label ++ ['\n']

/-- The unified diff between two texts, under a label. -/
def unifiedDiff (old new label : Text) (engine : DiffEngine := lineDiff) : Text :=
  if old = new then []
  else
    match diffHunks old new engine with
    | [] => []
    | hunks => diffHeader label ++ hunks.flatMap Hunk.render

/-- The number of hunks between two texts. -/
def hunkCount (old new : Text) (engine : DiffEngine := lineDiff) : Nat :=
  if old = new then 0
  else (engine.groups (Text.brokenLines old) (Text.brokenLines new)).length

end SyntaxEdit
