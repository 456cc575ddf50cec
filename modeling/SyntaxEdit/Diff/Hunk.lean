/-
Hunks: the changes between two texts, with a few unchanged lines around them.

* `blocksOf` — a script as blocks that alternate between kept and changed lines;
* `groupBlocks` — blocks cut into groups where many lines in a row are kept;
* `DiffEngine`, `lineDiff` — what finds blocks and groups, and the one in use;
* `diffHunks` — the hunks between two texts.
-/
import SyntaxEdit.Diff.Settle
import SyntaxEdit.Text.Decimal
import SyntaxEdit.Text.LineBreak

namespace SyntaxEdit

/-- Lines of the old text that stand against lines of the new one. Those of a kept block are equal;
those of another are deleted and inserted. -/
structure DiffBlock where
  kept : Bool
  old : Nat
  oldLength : Nat
  new : Nat
  newLength : Nat
deriving DecidableEq

/-! ### Blocks -/

/-- A run as a block. -/
def Run.block (r : Run) : DiffBlock :=
  ⟨r.kind = .kept, r.old, r.oldLength, r.new, r.newLength⟩

/-- A run in front of a block of the same sort. Each of the two positions of the result is that of
the first run with lines of that text, if there is one. -/
def Run.joinBlock (r : Run) (b : DiffBlock) : DiffBlock where
  kept := b.kept
  old := if r.kind = .inserted ∧ b.oldLength ≠ 0 then b.old else r.old
  oldLength := r.oldLength + b.oldLength
  new := if r.kind = .deleted ∧ b.newLength ≠ 0 then b.new else r.new
  newLength := r.newLength + b.newLength

/-- A script as blocks. -/
def blocksOf : List Run → List DiffBlock
  | [] => []
  | r :: rest =>
    match blocksOf rest with
    | [] => [r.block]
    | b :: blocks =>
      if b.kept = r.block.kept then r.joinBlock b :: blocks else r.block :: b :: blocks

namespace DiffBlock

/-- The first lines of a kept block. -/
def first (b : DiffBlock) (count : Nat) : DiffBlock :=
  { b with oldLength := min count b.oldLength, newLength := min count b.newLength }

/-- The last lines of a kept block. -/
def last (b : DiffBlock) (count : Nat) : DiffBlock :=
  { b with
    old := b.old + (b.oldLength - count)
    oldLength := min count b.oldLength
    new := b.new + (b.newLength - count)
    newLength := min count b.newLength }

end DiffBlock

/-! ### Groups of blocks -/

/-- The number of unchanged lines shown around changes. -/
def contextLines : Nat := 3

/-- Blocks without the kept lines before and after that are too far from any change. -/
def trimBlocks (blocks : List DiffBlock) : List DiffBlock :=
  let front := match blocks with
    | b :: rest => if b.kept then b.last contextLines :: rest else b :: rest
    | [] => []
  match front.getLast? with
  | some b => if b.kept then front.dropLast ++ [b.first contextLines] else front
  | none => []

/-- Blocks cut into groups in the middle of every long kept block, after the blocks of a group that
is not complete. A group of kept lines alone is none. -/
def groupFrom (group : List DiffBlock) : List DiffBlock → List (List DiffBlock)
  | [] =>
    match group with
    | [] => []
    | [b] => if b.kept then [] else [[b]]
    | group => [group]
  | b :: rest =>
    if b.kept ∧ 2 * contextLines < b.oldLength then
      (group ++ [b.first contextLines]) :: groupFrom [b.last contextLines] rest
    else groupFrom (group ++ [b]) rest

/-- The groups of blocks that hunks are made of. -/
def groupBlocks (blocks : List DiffBlock) : List (List DiffBlock) :=
  groupFrom [] (trimBlocks blocks)

/-! ### Engines -/

/-- What compares two lists of lines: it finds blocks that make one of the other, and cuts blocks
into the groups that hunks are made of. -/
structure DiffEngine where
  script : List Text → List Text → List DiffBlock
  group : List DiffBlock → List (List DiffBlock)

/-- The engine in use. -/
def lineDiff : DiffEngine :=
  ⟨fun old new => blocksOf (editScript old new), groupBlocks⟩

/-- The groups of blocks between two lists of lines. -/
def DiffEngine.groups (engine : DiffEngine) (old new : List Text) : List (List DiffBlock) :=
  engine.group (engine.script old new)

/-! ### Hunks -/

/-- A hunk: its header line, and its lines with what happens to each. -/
structure Hunk where
  header : Text
  lines : List (RunKind × Text)
deriving DecidableEq

/-- A range of lines from position `start` up to position `stop`: the number of its first line and
its length, which is left out if it is one. An empty range has the number of the line before it. -/
def renderRange (start stop : Nat) : Text :=
  let length := stop - start
  if length = 1 then Decimal.render (start + 1)
  else Decimal.render (if length = 0 then start else start + 1) ++ ',' :: Decimal.render length

/-- The header of a group of blocks. -/
def hunkHeader (group : List DiffBlock) : Text :=
  match group.head?, group.getLast? with
  | some first, some last =>
    "@@ -".toList ++ renderRange first.old (last.old + last.oldLength) ++ " +".toList ++
      renderRange first.new (last.new + last.newLength) ++ " @@".toList
  | _, _ => []

/-- The lines of a block. -/
def DiffBlock.lines (b : DiffBlock) (old new : List Text) : List (RunKind × Text) :=
  let olds := (old.drop b.old).take b.oldLength
  if b.kept then olds.map fun line => (.kept, line)
  else
    olds.map (fun line => (RunKind.deleted, line)) ++
      ((new.drop b.new).take b.newLength).map fun line => (.inserted, line)

/-- The hunks between two texts. -/
def diffHunks (old new : Text) (engine : DiffEngine := lineDiff) : List Hunk :=
  let oldLines := Text.brokenLines old
  let newLines := Text.brokenLines new
  (engine.groups oldLines newLines).map fun group =>
    ⟨hunkHeader group, group.flatMap fun b => b.lines oldLines newLines⟩

end SyntaxEdit
