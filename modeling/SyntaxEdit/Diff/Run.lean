/-
Edit scripts as runs of kept, deleted and inserted elements.

* `Run` — some elements in a row that share one fate;
* `runsBetween` — a script between two lists: what they share at both ends is kept, and what is left
  is split in the middle.
-/
import SyntaxEdit.Diff.Snake

namespace SyntaxEdit

/-- What happens to the elements of a run. -/
inductive RunKind where
  | kept
  | deleted
  | inserted
deriving DecidableEq

/-- Elements in a row with one fate: where they start in the old list and in the new one. -/
structure Run where
  kind : RunKind
  old : Nat
  new : Nat
  length : Nat
deriving DecidableEq

namespace Run

/-- The number of elements of the old list in a run. -/
def oldLength (r : Run) : Nat :=
  if r.kind = .inserted then 0 else r.length

/-- The number of elements of the new list in a run. -/
def newLength (r : Run) : Nat :=
  if r.kind = .deleted then 0 else r.length

/-- The elements of the old list in a run. -/
def oldPart {α : Type} (r : Run) (old : List α) : List α :=
  (old.drop r.old).take r.oldLength

/-- The elements of the new list in a run. -/
def newPart {α : Type} (r : Run) (new : List α) : List α :=
  (new.drop r.new).take r.newLength

/-- A run of kept elements, unless there are none. -/
def keep (old new length : Nat) : List Run :=
  if length = 0 then [] else [⟨.kept, old, new, length⟩]

/-- A run of deleted elements, unless there are none. -/
def delete (old new length : Nat) : List Run :=
  if length = 0 then [] else [⟨.deleted, old, new, length⟩]

/-- A run of inserted elements, unless there are none. -/
def insert (old new length : Nat) : List Run :=
  if length = 0 then [] else [⟨.inserted, old, new, length⟩]

end Run

variable {α : Type} [DecidableEq α]

/-- A script between two lists, the first elements of which have positions `old` and `new`. -/
def runsBetween (old new : Nat) (a b : List α) : List Run :=
  let front := commonFront a b
  let back := commonBack (a.drop front) (b.drop front)
  let a' := (a.drop front).take (a.length - front - back)
  let b' := (b.drop front).take (b.length - front - back)
  let i := old + front
  let j := new + front
  let changed :=
    match middleOf? a' b' with
    | some (x, y) =>
      if x ≤ a'.length ∧ y ≤ b'.length ∧ 0 < x + y ∧ x + y < a'.length + b'.length ∧
          a' ≠ [] ∧ b' ≠ [] then
        runsBetween i j (a'.take x) (b'.take y) ++
          runsBetween (i + x) (j + y) (a'.drop x) (b'.drop y)
      else Run.delete i j a'.length ++ Run.insert (i + a'.length) j b'.length
    | none => Run.delete i j a'.length ++ Run.insert (i + a'.length) j b'.length
  Run.keep old new front ++ changed ++ Run.keep (i + a'.length) (j + b'.length) back
termination_by a.length + b.length
decreasing_by
  all_goals
    simp only [a', b', List.length_take, List.length_drop] at *
    omega

end SyntaxEdit
