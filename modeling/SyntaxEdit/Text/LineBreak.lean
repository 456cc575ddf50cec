/-
Line breaks: which one a text uses, the lines of a text, and positions by row and column.

* `LineBreak.ofText` — the break to use when something is added to a text;
* `Text.rows` — the lines of a text without their breaks; a final break closes the last line;
* `Text.unifyBreaks` — a text with plain newlines in place of carriage return and newline;
* `Text.brokenLines` — the lines of a text with their breaks, a lone carriage return being one too;
* `Text.positionAt` — the row and the byte column of an offset, both from zero.
-/
import SyntaxEdit.Text.Basic

namespace SyntaxEdit

/-- The two line breaks that are told apart. -/
inductive LineBreak where
  | newline
  | returnNewline
deriving DecidableEq

/-- The characters of a line break. -/
def LineBreak.text : LineBreak → Text
  | newline => ['\n']
  | returnNewline => ['\r', '\n']

/-- A text with any carriage return and newline in it uses that break. -/
def LineBreak.ofText (t : Text) : LineBreak :=
  if Text.occursIn ['\r', '\n'] t then returnNewline else newline

/-- Whether a character is part of a line break. -/
def isBreak (c : Char) : Bool :=
  c = '\r' || c = '\n'

/-- A zero-based row and byte column. -/
structure Position where
  row : Nat
  column : Nat
deriving DecidableEq

namespace Text

/-- A text with every carriage return dropped that a newline directly follows. -/
def unifyBreaks : Text → Text
  | [] => []
  | '\r' :: '\n' :: rest => '\n' :: unifyBreaks rest
  | c :: rest => c :: unifyBreaks rest

/-- A text with a given line break in place of each newline. -/
def withBreaks (eol : LineBreak) (t : Text) : Text :=
  replaceChar '\n' eol.text t

/-- A line without the carriage return that ends it. -/
def dropReturn (line : Text) : Text :=
  if line.getLast? = some '\r' then line.dropLast else line

/-- The lines of a text. A line that a newline closes loses one carriage return with it; what
follows the last newline is a line if it is not empty. -/
def rows (t : Text) : List Text :=
  let pieces := splitOn '\n' t
  let last := pieces.getLast?.getD []
  pieces.dropLast.map dropReturn ++ if last = [] then [] else [last]

/-- A character in front of the first of some lines. -/
def consLine (c : Char) : List Text → List Text
  | [] => [[c]]
  | line :: lines => (c :: line) :: lines

/-- The lines of a text, each with the break that ends it: a newline, a carriage return and newline,
or a lone carriage return. -/
def brokenLines : Text → List Text
  | [] => []
  | '\r' :: '\n' :: rest => ['\r', '\n'] :: brokenLines rest
  | c :: rest => if isBreak c then [c] :: brokenLines rest else consLine c (brokenLines rest)

theorem flatten_consLine (c : Char) (lines : List Text) :
    (consLine c lines).flatten = c :: lines.flatten := by
  cases lines <;> rfl

/-- The lines make up the text. -/
theorem flatten_brokenLines (t : Text) : (brokenLines t).flatten = t := by
  fun_induction brokenLines t with
  | case1 => rfl
  | case2 rest ih => simp [ih]
  | case3 c rest _ _ ih => simp [ih]
  | case4 c rest _ _ ih => rw [flatten_consLine, ih]

/-- The row and column of a byte offset: the newlines before it, and the bytes since the last of
them. An offset at which the text cannot be cut counts as its end. -/
def positionAt (t : Text) (offset : Nat) : Position :=
  let before := match cut? t offset with
    | some (before, _) => before
    | none => t
  ⟨before.count '\n', byteLength (takeEndWhile (· ≠ '\n') before)⟩

end Text

end SyntaxEdit
