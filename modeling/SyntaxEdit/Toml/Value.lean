/-
The values of a TOML document.

* `TomlValue` — a value; floats and dates, which nothing here computes with, keep their written
  form;
* `lookupKey` — the value at a key of a table.
-/
import SyntaxEdit.Text.Basic

namespace SyntaxEdit

/-- A value of a TOML document. -/
inductive TomlValue where
  | string (value : Text)
  | integer (value : Int)
  | float (written : Text)
  | boolean (value : Bool)
  | dateTime (written : Text)
  | array (items : List TomlValue)
  | table (entries : List (Text × TomlValue))

namespace TomlValue

/-- The entries of a table. A date counts as a table without any known key, other values as none. -/
def entries? : TomlValue → Option (List (Text × TomlValue))
  | table entries => some entries
  | dateTime _ => some []
  | _ => none

/-- The items of an array. -/
def items? : TomlValue → Option (List TomlValue)
  | array items => some items
  | _ => none

/-- The characters of a string. -/
def text? : TomlValue → Option Text
  | string value => some value
  | _ => none

end TomlValue

/-- The value at a key. -/
def lookupKey (key : String) (entries : List (Text × TomlValue)) : Option TomlValue :=
  (entries.find? fun entry => entry.1 = key.toList).map Prod.snd

end SyntaxEdit
