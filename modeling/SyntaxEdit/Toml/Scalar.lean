/-
The written forms of TOML strings, numbers, booleans and dates.

Each reader takes the text that starts with its form and gives back the value and the rest, or
nothing if the form is broken.

* `Toml.readString?` — the four kinds of strings;
* `Toml.readBareValue?` — numbers, booleans and dates, which end at a separator.
-/
import SyntaxEdit.Text.Decimal
import SyntaxEdit.Toml.Value

namespace SyntaxEdit

namespace Toml

/-- The control characters that a document may hold only as escapes: all but the tab. -/
def isControl (c : Char) : Bool :=
  (c.toNat < 0x20 && c ≠ '\t') || c.toNat = 0x7F

/-- The value of a hexadecimal digit. -/
def hexValue? (c : Char) : Option Nat :=
  if '0' ≤ c ∧ c ≤ '9' then some (c.toNat - 48)
  else if 'a' ≤ c ∧ c ≤ 'f' then some (c.toNat - 87)
  else if 'A' ≤ c ∧ c ≤ 'F' then some (c.toNat - 55)
  else none

/-- The number that digits denote in a base of at most 16. -/
def readDigits? (base : Nat) (digits : Text) : Option Nat :=
  digits.foldlM (fun n c => do
    let d ← hexValue? c
    if d < base then some (n * base + d) else none) 0

/-! ### Strings -/

/-- The character that an escape of `count` hexadecimal digits denotes, and the rest. -/
def readCodePoint? (count : Nat) (t : Text) : Option (Char × Text) := do
  let digits := t.take count
  if digits.length < count then none
  else
    let n ← readDigits? 16 digits
    if n.isValidChar then some (Char.ofNat n, t.drop count) else none

/-- The character that an escape denotes, and the rest; the text starts after the backslash. -/
def readEscape? : Text → Option (Char × Text)
  | 'b' :: rest => some ('\x08', rest)
  | 't' :: rest => some ('\t', rest)
  | 'n' :: rest => some ('\n', rest)
  | 'f' :: rest => some ('\x0c', rest)
  | 'r' :: rest => some ('\r', rest)
  | 'e' :: rest => some ('\x1b', rest)
  | '"' :: rest => some ('"', rest)
  | '\\' :: rest => some ('\\', rest)
  | 'x' :: rest => readCodePoint? 2 rest
  | 'u' :: rest => readCodePoint? 4 rest
  | 'U' :: rest => readCodePoint? 8 rest
  | _ => none

/-- A string on one line, up to its closing quote. Only a string in double quotes has escapes. The
fuel bounds the number of characters. -/
def readLine? (quote : Char) : Nat → Text → Option (Text × Text)
  | 0, _ => none
  | _ + 1, [] => none
  | fuel + 1, c :: rest =>
    if c = quote then some ([], rest)
    else if isControl c then none
    else do
      let (d, after) ← if c = '\\' ∧ quote = '"' then readEscape? rest else some (c, rest)
      let (tail, final) ← readLine? quote fuel after
      some (d :: tail, final)

/-- The white space and newlines that an escaped line break swallows; there has to be a newline
before anything else but blanks. -/
def skipEscapedBreak? (t : Text) : Option Text :=
  match t.dropWhile fun c => c = ' ' || c = '\t' with
  | '\n' :: rest => some (rest.dropWhile fun c => c = ' ' || c = '\t' || c = '\n' || c = '\r')
  | '\r' :: '\n' :: rest =>
    some (rest.dropWhile fun c => c = ' ' || c = '\t' || c = '\n' || c = '\r')
  | _ => none

/-- A string on several lines, up to its three closing quotes. One or two quotes may stand before
them. -/
def readLines? (quote : Char) : Nat → Text → Option (Text × Text)
  | 0, _ => none
  | _ + 1, [] => none
  | fuel + 1, c :: rest =>
    let quotes := (c :: rest).takeWhile (· = quote)
    if 3 ≤ quotes.length then
      if quotes.length ≤ 5 then some (quotes.drop 3, (c :: rest).drop quotes.length) else none
    else if c = '\r' then
      match rest with
      | '\n' :: after => do
        let (tail, final) ← readLines? quote fuel after
        some ('\n' :: tail, final)
      | _ => none
    else if c ≠ '\n' ∧ isControl c then none
    else if c = '\\' ∧ quote = '"' then
      match skipEscapedBreak? rest with
      | some after => readLines? quote fuel after
      | none => do
        let (d, after) ← readEscape? rest
        let (tail, final) ← readLines? quote fuel after
        some (d :: tail, final)
    else do
      let (tail, final) ← readLines? quote fuel rest
      some (c :: tail, final)

/-- A text without the newline it may start with. -/
def dropFirstBreak : Text → Text
  | '\n' :: rest => rest
  | '\r' :: '\n' :: rest => rest
  | t => t

/-- A string in quotes on one line. -/
def readQuotedLine? : Text → Option (Text × Text)
  | '"' :: rest => readLine? '"' (rest.length + 1) rest
  | '\'' :: rest => readLine? '\'' (rest.length + 1) rest
  | _ => none

/-- A string of any kind. -/
def readString? : Text → Option (Text × Text)
  | '"' :: '"' :: '"' :: rest =>
    let body := dropFirstBreak rest
    readLines? '"' (body.length + 1) body
  | '\'' :: '\'' :: '\'' :: rest =>
    let body := dropFirstBreak rest
    readLines? '\'' (body.length + 1) body
  | t => readQuotedLine? t

/-! ### Numbers -/

/-- Digits without the underscores between them. An underscore has to stand between two digits. -/
def dropUnderscores? (isDigit : Char → Bool) : Text → Option Text
  | [] => none
  | [c] => if isDigit c then some [c] else none
  | c :: '_' :: rest =>
    if isDigit c then (dropUnderscores? isDigit rest).map (c :: ·) else none
  | c :: rest => if isDigit c then (dropUnderscores? isDigit rest).map (c :: ·) else none

/-- A text without the sign it may start with, and whether that is a minus. -/
def splitSign : Text → Bool × Text
  | '+' :: rest => (false, rest)
  | '-' :: rest => (true, rest)
  | t => (false, t)

/-- The digits of a decimal number, without underscores and without leading zeros. -/
def decimalDigits? (t : Text) : Option Text := do
  let digits ← dropUnderscores? Char.isDigit t
  match digits with
  | '0' :: _ :: _ => none
  | _ => some digits

/-- The first number that is no integer of 64 bits. -/
def integerLimit : Nat := 9223372036854775808

/-- An integer of 64 bits. Those in other bases than ten have no sign. -/
def readInteger? (t : Text) : Option Int := do
  let inBase (base : Nat) (digits : Text) : Option Int := do
    let n ← readDigits? base (← dropUnderscores? (fun c => (hexValue? c).any (· < base)) digits)
    if n < integerLimit then some (Int.ofNat n) else none
  match t with
  | '0' :: 'x' :: digits => inBase 16 digits
  | '0' :: 'o' :: digits => inBase 8 digits
  | '0' :: 'b' :: digits => inBase 2 digits
  | _ =>
    let (negative, unsigned) := splitSign t
    let n ← readDigits? 10 (← decimalDigits? unsigned)
    if negative then (if n ≤ integerLimit then some (-(Int.ofNat n)) else none)
    else if n < integerLimit then some (Int.ofNat n) else none

/-- Whether a text is the exponent of a float, after the `e`: digits with a sign or without. -/
def isExponent (t : Text) : Bool :=
  (dropUnderscores? Char.isDigit (splitSign t).2).isSome

/-- Whether a text is a float: an integer part with a fraction, an exponent, or both, or one of the
names of infinity and of no number. -/
def isFloat (t : Text) : Bool :=
  let unsigned := (splitSign t).2
  if unsigned = "inf".toList ∨ unsigned = "nan".toList then true
  else
    let whole := unsigned.takeWhile fun c => c.isDigit || c = '_'
    (decimalDigits? whole).isSome &&
      match unsigned.dropWhile fun c => c.isDigit || c = '_' with
      | '.' :: rest =>
        let fraction := rest.takeWhile fun c => c.isDigit || c = '_'
        (dropUnderscores? Char.isDigit fraction).isSome &&
          match rest.dropWhile fun c => c.isDigit || c = '_' with
          | [] => true
          | e :: exponent => (e = 'e' || e = 'E') && isExponent exponent
      | e :: exponent => (e = 'e' || e = 'E') && isExponent exponent
      | [] => false

/-! ### Dates and times -/

/-- A number of exactly `count` digits between two bounds, and the rest. -/
def readField? (count low high : Nat) (t : Text) : Option (Nat × Text) := do
  let digits := t.take count
  if digits.length = count ∧ digits.all Char.isDigit then
    let n ← readDigits? 10 digits
    if low ≤ n ∧ n ≤ high then some (n, t.drop count) else none
  else none

/-- The rest of a text after a character it has to start with. -/
def skipChar? (c : Char) : Text → Option Text
  | d :: rest => if c = d then some rest else none
  | [] => none

/-- The number of days of a month. -/
def daysOfMonth (year month : Nat) : Nat :=
  if month = 2 then
    if year % 4 = 0 ∧ (year % 100 ≠ 0 ∨ year % 400 = 0) then 29 else 28
  else if month = 4 ∨ month = 6 ∨ month = 9 ∨ month = 11 then 30
  else 31

/-- The rest of a text after a date. -/
def skipDate? (t : Text) : Option Text := do
  let (year, t) ← readField? 4 0 9999 t
  let (month, t) ← readField? 2 1 12 (← skipChar? '-' t)
  let (_, t) ← readField? 2 1 (daysOfMonth year month) (← skipChar? '-' t)
  some t

/-- The rest of a text after the seconds of a time, with a fraction or without. -/
def skipSeconds? (t : Text) : Option Text := do
  let (_, t) ← readField? 2 0 60 t
  match t with
  | '.' :: rest =>
    if (rest.takeWhile Char.isDigit).isEmpty then none else some (rest.dropWhile Char.isDigit)
  | _ => some t

/-- The rest of a text after a time, with seconds or without. -/
def skipTime? (t : Text) : Option Text := do
  let (_, t) ← readField? 2 0 23 t
  let (_, t) ← readField? 2 0 59 (← skipChar? ':' t)
  match t with
  | ':' :: seconds => skipSeconds? seconds
  | _ => some t

/-- Whether a text is an offset from universal time, or empty. -/
def isOffset : Text → Bool
  | [] => true
  | ['Z'] => true
  | ['z'] => true
  | sign :: t =>
    (sign = '+' || sign = '-') &&
      (do
        let (_, t) ← readField? 2 0 23 t
        let (_, t) ← readField? 2 0 59 (← skipChar? ':' t)
        if t = [] then some () else none).isSome

/-- Whether a text is a date, a time, or a date and a time with an offset or without. -/
def isDateTime (t : Text) : Bool :=
  match skipDate? t with
  | some [] => true
  | some (separator :: rest) =>
    (separator = 'T' || separator = 't' || separator = ' ') && (skipTime? rest).any isOffset
  | none => skipTime? t = some []

/-! ### Values that end at a separator -/

/-- The characters that numbers, booleans and dates are written with. -/
def inBareValue (c : Char) : Bool :=
  c.isAlphanum || c = '_' || c = '-' || c = '+' || c = '.' || c = ':'

/-- The written form of a number, boolean or date, and the rest. One space belongs to it where it
stands between a date and a time. -/
def splitBareValue (t : Text) : Text × Text :=
  let word := t.takeWhile inBareValue
  match t.dropWhile inBareValue with
  | ' ' :: d :: rest =>
    if d.isDigit ∧ skipDate? word = some [] then
      (word ++ ' ' :: (d :: rest).takeWhile inBareValue, (d :: rest).dropWhile inBareValue)
    else (word, ' ' :: d :: rest)
  | rest => (word, rest)

/-- A number, boolean or date. -/
def readBareValue? (t : Text) : Option (TomlValue × Text) :=
  let (word, rest) := splitBareValue t
  if word = "true".toList then some (.boolean true, rest)
  else if word = "false".toList then some (.boolean false, rest)
  else
    match readInteger? word with
    | some n => some (.integer n, rest)
    | none =>
      if isFloat word then some (.float word, rest)
      else if isDateTime word then some (.dateTime word, rest)
      else none

end Toml

end SyntaxEdit
