/-
Byte ranges of a text that have to be valid, and the lines around an offset.

Everything here fails with an `InvalidRange` when an offset is past the end, stands inside a
character, or ends a range before its start.

* `Text.cutAt`, `Text.between` — the parts of a text at an offset, and the part between two;
* `Text.lineStart`, `Text.lineEnd` — where the line around an offset starts, and where the line
  break that ends it stands;
* `Text.lineIndent`, `Text.startsLine` — the spaces and tabs that line starts with, and whether
  nothing else stands before the offset.
-/
import SyntaxEdit.Text.Blank
import SyntaxEdit.Text.Decimal

namespace SyntaxEdit

/-- A byte range that is no part of a text of `length` bytes. -/
structure InvalidRange where
  start : Nat
  stop : Nat
  length : Nat
deriving DecidableEq

/-- The wording of an invalid range. -/
def InvalidRange.message (r : InvalidRange) : Text :=
  "invalid byte range [".toList ++ Decimal.render r.start ++ ", ".toList ++ Decimal.render r.stop ++
    ") in text of length ".toList ++ Decimal.render r.length

namespace Text

/-- The two parts of a text at a byte offset. -/
def cutAt (t : Text) (offset : Nat) : Except InvalidRange (Text × Text) :=
  match cut? t offset with
  | some parts => .ok parts
  | none => .error ⟨offset, offset, byteLength t⟩

/-- The part of a text between two byte offsets. -/
def between (t : Text) (start stop : Nat) : Except InvalidRange Text :=
  match slice? t start stop with
  | some part => .ok part
  | none => .error ⟨start, stop, byteLength t⟩

/-! ### The line around an offset -/

/-- The offset at which the line around an offset starts. -/
def lineStart (t : Text) (offset : Nat) : Except InvalidRange Nat := do
  let (before, _) ← cutAt t offset
  return byteLength (trimEndWhile (· ≠ '\n') before)

/-- The offset of the newline that ends the line around an offset; the end of the text on the last
line. -/
def lineEnd (t : Text) (offset : Nat) : Except InvalidRange Nat := do
  let (before, after) ← cutAt t offset
  return byteLength before + byteLength (after.takeWhile (· ≠ '\n'))

/-- The spaces and tabs that the line around an offset starts with. -/
def lineIndent (t : Text) (offset : Nat) : Except InvalidRange Text := do
  let start ← lineStart t offset
  let stop ← lineEnd t start
  return (← between t start stop).takeWhile isIndent

/-- Whether only spaces and tabs stand before an offset on its line. -/
def startsLine (t : Text) (offset : Nat) : Except InvalidRange Bool := do
  let start ← lineStart t offset
  return (← between t start offset).all isIndent

/-- The offset at which the spaces and tabs that directly precede an offset start. -/
def indentBefore (t : Text) (offset : Nat) : Except InvalidRange Nat := do
  let (before, _) ← cutAt t offset
  return byteLength (trimEndWhile isIndent before)

end Text

end SyntaxEdit
