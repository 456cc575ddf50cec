/-
TOML documents: the table that the statements of a text make.

* `Toml.parse?` — the root table of a document; nothing for a text that is no document.

A table may be made once: by its header, by dotted keys, or by the header of a table below it, and
only in the last case may its own header still follow. No key is given twice.
-/
import SyntaxEdit.Toml.Statement

namespace SyntaxEdit

namespace Toml

/-- Change the table that a header opened last; in an array of tables that is the last one. -/
def updateTable? (change : List (Text × Slot) → Option (List (Text × Slot)))
    (entries : List (Text × Slot)) : List Text → Option (List (Text × Slot))
  | [] => change entries
  | key :: rest => do
    match ← findSlot key entries with
    | .value _ => none
    | .dotted inner => do
      some (setSlot key (.dotted (← updateTable? change inner rest)) entries)
    | .implied inner => do
      some (setSlot key (.implied (← updateTable? change inner rest)) entries)
    | .headed inner => do
      some (setSlot key (.headed (← updateTable? change inner rest)) entries)
    | .tables items => do
      -- An array of tables has at least one, and what follows its header is about the last.
      let last ← updateTable? change (← items.getLast?) rest
      some (setSlot key (.tables (items.dropLast ++ [last])) entries)

/-- Open the table of a header at the last part of its key, given what stands there. -/
def openTable? : Option Slot → Option Slot
  | none => some (.headed [])
  | some (.implied inner) => some (.headed inner)
  | _ => none

/-- Add a table to the array of a header at the last part of its key. -/
def openItem? : Option Slot → Option Slot
  | none => some (.tables [[]])
  | some (.tables items) => some (.tables (items ++ [[]]))
  | _ => none

/-- Follow the key of a header, making the tables on the way, and open what its last part names. -/
def openHeader? (opening : Option Slot → Option Slot) (entries : List (Text × Slot)) :
    List Text → Option (List (Text × Slot))
  | [] => none
  | [key] => do some (setSlot key (← opening (findSlot key entries)) entries)
  | key :: next :: rest =>
    match findSlot key entries with
    | none => do
      some (setSlot key (.implied (← openHeader? opening [] (next :: rest))) entries)
    | some (.value _) => none
    | some (.dotted inner) => do
      some (setSlot key (.dotted (← openHeader? opening inner (next :: rest))) entries)
    | some (.implied inner) => do
      some (setSlot key (.implied (← openHeader? opening inner (next :: rest))) entries)
    | some (.headed inner) => do
      some (setSlot key (.headed (← openHeader? opening inner (next :: rest))) entries)
    | some (.tables items) => do
      let last ← openHeader? opening (← items.getLast?) (next :: rest)
      some (setSlot key (.tables (items.dropLast ++ [last])) entries)

/-- The root table after one more statement, with the key of the header it stands under. -/
def addStatement? (state : List (Text × Slot) × List Text) :
    Statement → Option (List (Text × Slot) × List Text)
  | .table key => do some (← openHeader? openTable? state.1 key, key)
  | .arrayItem key => do some (← openHeader? openItem? state.1 key, key)
  | .pair key value => do
    some (← updateTable? (fun entries => insertPair? entries key value) state.1 state.2, state.2)

/-- The entries of the root table of a document. -/
def parse? (t : Text) : Option (List (Text × TomlValue)) := do
  let statements ← readStatements? t
  let (entries, _) ← statements.foldlM addStatement? ([], [])
  some (entriesToValues entries)

end Toml

end SyntaxEdit
