/-
Runs of deleted and inserted elements moved to where they join others.

A run of insertions can move over equal elements at its ends without changing what a script does.
Each run goes up as far as it can and then down as far as it can; on its way it takes up runs of its
kind, and passes runs of the other kind.

* `Cursor.moveUp`, `Cursor.moveDown` — one run moved through a script;
* `settle` — every run of a kind moved.

A run keeps the positions it was given when another passes it, so that the position in the list it
has no elements of can be that of an earlier state.
-/
import SyntaxEdit.Diff.Run

namespace SyntaxEdit

variable {α : Type} [DecidableEq α]

/-- A run of a script, with the runs before it, the nearest first, and those after it. -/
structure Cursor where
  before : List Run
  run : Run
  after : List Run

namespace Run

/-- A run moved up by some elements. -/
def moveUp (r : Run) (count : Nat) : Run :=
  { r with old := r.old - count, new := r.new - count }

/-- A run moved down by some elements. -/
def moveDown (r : Run) (count : Nat) : Run :=
  { r with old := r.old + count, new := r.new + count }

/-- A run without its last elements. -/
def dropBack (r : Run) (count : Nat) : Run :=
  { r with length := r.length - count }

/-- A run without its first elements. -/
def dropFront (r : Run) (count : Nat) : Run :=
  { r.moveDown count with length := r.length - count }

/-- A run with more elements at its back. -/
def extend (r : Run) (count : Nat) : Run :=
  { r with length := r.length + count }

/-- Runs with kept elements in front of them. -/
def keepInFront (kept : Run) : List Run → List Run
  | [] => [kept]
  | next :: rest =>
    if next.kind = .kept then (next.moveUp kept.length).extend kept.length :: rest
    else kept :: next :: rest

/-- Runs, the nearest first, with kept elements behind the nearest. -/
def keepBehind (kept : Run) : List Run → List Run
  | [] => [kept]
  | previous :: rest =>
    if previous.kind = .kept then previous.extend kept.length :: rest
    else kept :: previous :: rest

end Run

/-- The number of elements in some runs, and of the runs themselves. -/
def runsWeight : List Run → Nat
  | [] => 0
  | r :: rest => r.length + 1 + runsWeight rest

/-- The run at a cursor moved up as far as it goes. -/
def Cursor.moveUp (a b : List α) : Cursor → Cursor
  | ⟨[], run, after⟩ => ⟨[], run, after⟩
  | ⟨previous :: before, run, after⟩ =>
    if previous.kind = .kept then
      let count := commonBack (previous.oldPart a) (run.newPart b)
      if count = 0 then
        if previous.length = 0 then Cursor.moveUp a b ⟨before, run, after⟩
        else ⟨previous :: before, run, after⟩
      else
        -- The kept elements that the run passes are found again behind it.
        let passed : Run := ⟨.kept, previous.old + previous.length - count,
          run.new + run.newLength - count, count⟩
        let after := Run.keepInFront passed after
        if previous.length ≤ count then Cursor.moveUp a b ⟨before, run.moveUp count, after⟩
        else Cursor.moveUp a b ⟨previous.dropBack count :: before, run.moveUp count, after⟩
    else if previous.kind = run.kind then
      -- The joined run goes on upwards from where the earlier one stood.
      Cursor.moveUp a b ⟨before, previous.extend run.length, after⟩
    else Cursor.moveUp a b ⟨before, run, previous :: after⟩
termination_by c => runsWeight c.before
decreasing_by
  all_goals
    simp only [runsWeight, Run.dropBack]
    omega

/-- The run at a cursor moved down as far as it goes. -/
def Cursor.moveDown (a b : List α) : Cursor → Cursor
  | ⟨before, run, []⟩ => ⟨before, run, []⟩
  | ⟨before, run, next :: after⟩ =>
    if next.kind = .kept then
      let count := commonFront (next.oldPart a) (run.newPart b)
      if count = 0 then
        if next.length = 0 then Cursor.moveDown a b ⟨before, run, after⟩
        else ⟨before, run, next :: after⟩
      else
        -- What is passed on the way down is found again in front of the run.
        let before := Run.keepBehind ⟨.kept, next.old, run.new, count⟩ before
        if next.length ≤ count then Cursor.moveDown a b ⟨before, run.moveDown count, after⟩
        else Cursor.moveDown a b ⟨before, run.moveDown count, next.dropFront count :: after⟩
    else if next.kind = run.kind then
      Cursor.moveDown a b ⟨before, run.extend next.length, after⟩
    else Cursor.moveDown a b ⟨next :: before, run, after⟩
termination_by c => runsWeight c.after
decreasing_by
  all_goals
    simp only [runsWeight, Run.dropFront, Run.moveDown]
    omega

/-- The runs of a kind moved, one after the other, in at most some number of turns; those before are
done with, the nearest first. -/
def settleFrom (a b : List α) (kind : RunKind) : Nat → List Run → List Run → List Run
  | 0, before, after => before.reverse ++ after
  | _ + 1, before, [] => before.reverse
  | turns + 1, before, run :: after =>
    if run.kind = kind then
      let moved := Cursor.moveDown a b (Cursor.moveUp a b ⟨before, run, after⟩)
      settleFrom a b kind turns (moved.run :: moved.before) moved.after
    else settleFrom a b kind turns (run :: before) after

/-- A script with the runs of a kind moved. A turn either goes on to the next run or has joined two
runs, so that the turns suffice. -/
def settle (a b : List α) (kind : RunKind) (script : List Run) : List Run :=
  let size := script.length + a.length + b.length + 1
  settleFrom a b kind (size * size) [] script

/-- The script between two lists. -/
def editScript (a b : List α) : List Run :=
  settle a b .inserted (settle a b .deleted (runsBetween 0 0 a b))

end SyntaxEdit
