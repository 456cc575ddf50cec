/-
The statements of a TOML document: headers and pairs, in the order in which they are written.

* `Toml.Statement` — a table header, a header of an array of tables, or a key with a value;
* `Toml.readValue?` — a value, with nested arrays and inline tables;
* `Toml.readStatements?` — the statements of a document.

An inline table is put together as soon as it is read, by `Toml.readInline?`.
-/
import SyntaxEdit.Toml.Scalar

namespace SyntaxEdit

namespace Toml

/-! ### White space, comments and keys -/

/-- A text without the spaces and tabs at its start. -/
def skipBlanks (t : Text) : Text :=
  t.dropWhile fun c => c = ' ' || c = '\t'

/-- The rest of a text after the newline it has to start with. -/
def skipNewline? : Text → Option Text
  | '\n' :: rest => some rest
  | '\r' :: '\n' :: rest => some rest
  | _ => none

/-- What follows the comment that a text may start with, from the line break on. -/
def skipComment? : Text → Option Text
  | '#' :: rest =>
    let comment := rest.takeWhile fun c => !isControl c
    some (rest.drop comment.length)
  | t => some t

/-- What follows blanks, comments and newlines. The fuel bounds the number of lines. -/
def skipLines? : Nat → Text → Option Text
  | 0, _ => none
  | fuel + 1, t => do
    let after ← skipComment? (skipBlanks t)
    match skipNewline? after with
    | some rest => skipLines? fuel rest
    | none => some after

/-- What follows blanks, comments and newlines. -/
def skipSpace? (t : Text) : Option Text :=
  skipLines? (t.length + 1) t

/-- The characters of keys that need no quotes. -/
def inBareKey (c : Char) : Bool :=
  c.isAlphanum || c = '_' || c = '-'

/-- One part of a key: bare, or a quoted string on one line. -/
def readKeyPart? (t : Text) : Option (Text × Text) :=
  match t with
  | '"' :: _ => readQuotedLine? t
  | '\'' :: _ => readQuotedLine? t
  | _ =>
    let word := t.takeWhile inBareKey
    if word = [] then none else some (word, t.dropWhile inBareKey)

/-- The parts of a dotted key, with blanks around them. The fuel bounds their number. -/
def readKeyParts? : Nat → Text → Option (List Text × Text)
  | 0, _ => none
  | fuel + 1, t => do
    let (part, rest) ← readKeyPart? (skipBlanks t)
    match skipBlanks rest with
    | '.' :: after => do
      let (parts, final) ← readKeyParts? fuel after
      some (part :: parts, final)
    | after => some ([part], after)

/-- A dotted key. -/
def readKey? (t : Text) : Option (List Text × Text) :=
  readKeyParts? (t.length + 1) t

/-! ### Values -/

/-- An entry of a table that is being put together. -/
inductive Slot where
  /-- A value that is closed. -/
  | value (v : TomlValue)
  /-- A table that dotted keys make, open to more of them. -/
  | dotted (entries : List (Text × Slot))
  /-- A table that the header of a table below it makes. -/
  | implied (entries : List (Text × Slot))
  /-- A table with a header of its own. -/
  | headed (entries : List (Text × Slot))
  /-- An array of tables, each with its header. -/
  | tables (items : List (List (Text × Slot)))

mutual

/-- The value that a slot holds in the end. -/
def Slot.toValue : Slot → TomlValue
  | .value v => v
  | .dotted entries => .table (entriesToValues entries)
  | .implied entries => .table (entriesToValues entries)
  | .headed entries => .table (entriesToValues entries)
  | .tables items => .array (itemsToValues items)

/-- The values that the entries of a table hold in the end. -/
def entriesToValues : List (Text × Slot) → List (Text × TomlValue)
  | [] => []
  | (key, slot) :: rest => (key, slot.toValue) :: entriesToValues rest

/-- The tables of an array in the end. -/
def itemsToValues : List (List (Text × Slot)) → List TomlValue
  | [] => []
  | entries :: rest => .table (entriesToValues entries) :: itemsToValues rest

end

/-- The entry at a key. -/
def findSlot (key : Text) (entries : List (Text × Slot)) : Option Slot :=
  (entries.find? fun entry => entry.1 = key).map Prod.snd

/-- The entries with one of them replaced, or added at the end. -/
def setSlot (key : Text) (slot : Slot) : List (Text × Slot) → List (Text × Slot)
  | [] => [(key, slot)]
  | (k, s) :: rest => if k = key then (key, slot) :: rest else (k, s) :: setSlot key slot rest

/-- A table with the value of a dotted key. `isDotted` tells whether dotted keys made the table, and
`wholeDotted` whether the whole key has more than one part: only such a key may add to such a
table. Nothing is added at a key that is taken. -/
def insertDotted? (isDotted wholeDotted : Bool) (entries : List (Text × Slot)) (value : TomlValue) :
    List Text → Option (List (Text × Slot))
  | [] => none
  | [key] =>
    if isDotted ≠ wholeDotted then none
    else
      match findSlot key entries with
      | some _ => none
      | none => some (setSlot key (.value value) entries)
  | key :: next :: rest =>
    match findSlot key entries with
    | none => do
      let inner ← insertDotted? true wholeDotted [] value (next :: rest)
      some (setSlot key (.dotted inner) entries)
    | some (.dotted inner) => do
      let inner ← insertDotted? true wholeDotted inner value (next :: rest)
      some (setSlot key (.dotted inner) entries)
    | some (.implied inner) => do
      let inner ← insertDotted? false wholeDotted inner value (next :: rest)
      some (setSlot key (.implied inner) entries)
    | some (.tables items) => do
      let last ← items.getLast?
      let last ← insertDotted? false wholeDotted last value (next :: rest)
      some (setSlot key (.tables (items.dropLast ++ [last])) entries)
    | some (.headed _) => none
    | some (.value _) => none

/-- A table with the value of a dotted key that stands directly in it. -/
def insertPair? (entries : List (Text × Slot)) (key : List Text) (value : TomlValue) :
    Option (List (Text × Slot)) :=
  insertDotted? false (1 < key.length) entries value key

mutual

/-- A value. The fuel bounds the number of readers called inside each other. -/
def readValueWithin? : Nat → Text → Option (TomlValue × Text)
  | 0, _ => none
  | fuel + 1, t =>
    match t with
    | '"' :: _ => (readString? t).map fun (s, rest) => (.string s, rest)
    | '\'' :: _ => (readString? t).map fun (s, rest) => (.string s, rest)
    | '[' :: rest => do
      let (items, final) ← readItems? fuel (← skipSpace? rest)
      some (.array items, final)
    | '{' :: rest => do
      let (entries, final) ← readInline? fuel [] (← skipSpace? rest)
      some (.table (entriesToValues entries), final)
    | _ => readBareValue? t

/-- The items of an array, up to its closing bracket. -/
def readItems? : Nat → Text → Option (List TomlValue × Text)
  | 0, _ => none
  | fuel + 1, t =>
    match t with
    | ']' :: rest => some ([], rest)
    | _ => do
      let (item, rest) ← readValueWithin? fuel t
      match ← skipSpace? rest with
      | ',' :: after => do
        let (items, final) ← readItems? fuel (← skipSpace? after)
        some (item :: items, final)
      | ']' :: after => some ([item], after)
      | _ => none

/-- The entries of an inline table added to those read so far, up to its closing brace. -/
def readInline? : Nat → List (Text × Slot) → Text → Option (List (Text × Slot) × Text)
  | 0, _, _ => none
  | fuel + 1, entries, t =>
    match t with
    | '}' :: rest => some (entries, rest)
    | _ => do
      let (key, rest) ← readKey? t
      match rest with
      | '=' :: afterKey => do
        let (value, rest) ← readValueWithin? fuel (skipBlanks afterKey)
        let entries ← insertPair? entries key value
        match ← skipSpace? rest with
        | ',' :: after => readInline? fuel entries (← skipSpace? after)
        | '}' :: after => some (entries, after)
        | _ => none
      | _ => none

end

/-- A value at the start of a text, and the rest. -/
def readValue? (t : Text) : Option (TomlValue × Text) :=
  readValueWithin? (2 * t.length + 2) t

/-! ### Statements -/

/-- A header or a pair of a document. -/
inductive Statement where
  /-- `[key]`: the pairs that follow belong to this table. -/
  | table (key : List Text)
  /-- `[[key]]`: the pairs that follow belong to a new table of this array. -/
  | arrayItem (key : List Text)
  /-- `key = value`. -/
  | pair (key : List Text) (value : TomlValue)

/-- A statement at the start of a text, and the rest. -/
def readStatement? (t : Text) : Option (Statement × Text) :=
  match t with
  | '[' :: '[' :: rest => do
    match ← readKey? rest with
    | (key, ']' :: ']' :: final) => some (.arrayItem key, final)
    | _ => none
  | '[' :: rest => do
    match ← readKey? rest with
    | (key, ']' :: final) => some (.table key, final)
    | _ => none
  | _ => do
    match ← readKey? t with
    | (key, '=' :: rest) => do
      let (value, final) ← readValue? (skipBlanks rest)
      some (.pair key value, final)
    | _ => none

/-- The statements of a text, each on its own line. The fuel bounds their number. -/
def readStatementsWithin? : Nat → Text → Option (List Statement)
  | 0, _ => none
  | fuel + 1, t => do
    match ← skipSpace? t with
    | [] => some []
    | start => do
      let (statement, rest) ← readStatement? start
      match ← skipComment? (skipBlanks rest) with
      | [] => some [statement]
      | after => some (statement :: (← readStatementsWithin? fuel (← skipNewline? after)))

/-- The statements of a document. A byte order mark may stand before them. -/
def readStatements? (t : Text) : Option (List Statement) :=
  let body := match t with
    | c :: rest => if c.toNat = 0xFEFF then rest else c :: rest
    | [] => []
  readStatementsWithin? (body.length + 1) body

end Toml

end SyntaxEdit
