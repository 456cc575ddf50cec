/-
JSON values and their indented text.

* `JsonValue.pretty` — a value over several lines, with two spaces for each level and the members of
  an object in the order given;
* `JsonValue.quote` — a string literal.
-/
import SyntaxEdit.Text.Decimal

namespace SyntaxEdit

/-- A JSON value. Numbers are natural. -/
inductive JsonValue where
  | null
  | bool (value : Bool)
  | number (value : Nat)
  | string (value : Text)
  | array (items : List JsonValue)
  | object (members : List (String × JsonValue))

namespace JsonValue

/-- The character of a digit below sixteen. -/
def hexDigit (d : Nat) : Char :=
  if d < 10 then Char.ofNat (48 + d) else Char.ofNat (87 + d)

/-- A character inside a string literal. -/
def escapeChar (c : Char) : Text :=
  if c = '"' then ['\\', '"']
  else if c = '\\' then ['\\', '\\']
  else if c = '\n' then ['\\', 'n']
  else if c = '\r' then ['\\', 'r']
  else if c = '\t' then ['\\', 't']
  else if c = '\x08' then ['\\', 'b']
  else if c = '\x0c' then ['\\', 'f']
  else if c.toNat < 32 then
    ['\\', 'u', '0', '0', hexDigit (c.toNat / 16), hexDigit (c.toNat % 16)]
  else [c]

/-- A text as a string literal. -/
def quote (t : Text) : Text :=
  '"' :: t.flatMap escapeChar ++ ['"']

/-- The spaces at the start of a line on a level. -/
def indentation (level : Nat) : Text :=
  List.replicate (2 * level) ' '

/-- Items between brackets, each on a line of its own one level further in. -/
def bracket (level : Nat) (opening closing : Char) (items : List Text) : Text :=
  if items = [] then [opening, closing]
  else
    let separator := ',' :: '\n' :: indentation (level + 1)
    opening :: '\n' :: indentation (level + 1) ++ Text.joinWith separator items ++
      '\n' :: indentation level ++ [closing]

mutual

/-- The text of a value that starts on a line of some level. -/
def prettyAt (level : Nat) : JsonValue → Text
  | null => "null".toList
  | bool true => "true".toList
  | bool false => "false".toList
  | number n => Decimal.render n
  | string t => quote t
  | array items => bracket level '[' ']' (prettyItems (level + 1) items)
  | object members => bracket level '\x7b' '\x7d' (prettyMembers (level + 1) members)

/-- The texts of several values. -/
def prettyItems (level : Nat) : List JsonValue → List Text
  | [] => []
  | item :: rest => item.prettyAt level :: prettyItems level rest

/-- The texts of the members of an object. -/
def prettyMembers (level : Nat) : List (String × JsonValue) → List Text
  | [] => []
  | (key, value) :: rest =>
    (quote key.toList ++ ':' :: ' ' :: value.prettyAt level) :: prettyMembers level rest

end

/-- The indented text of a value. -/
def pretty (v : JsonValue) : Text :=
  v.prettyAt 0

/-- A string or nothing. -/
def ofOption : Option Text → JsonValue
  | some t => string t
  | none => null

/-- An array of strings. -/
def ofTexts (texts : List Text) : JsonValue :=
  array (texts.map string)

end JsonValue

end SyntaxEdit
