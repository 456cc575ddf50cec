/-
Styled text for terminals.

* `Style.apply` — a text between the codes that switch a style on and off, where colours are wanted.
-/
import SyntaxEdit.Text.Decimal

namespace SyntaxEdit

/-- How a text is shown. -/
inductive Style where
  | bold
  | dimmed
  | red
  | green
  | yellow
  | cyan
deriving DecidableEq

namespace Style

/-- The number of a style in its code. -/
def number : Style → Nat
  | bold => 1
  | dimmed => 2
  | red => 31
  | green => 32
  | yellow => 33
  | cyan => 36

/-- The code that switches a style on. -/
def code (s : Style) : Text :=
  '\x1b' :: '[' :: Decimal.render s.number ++ ['m']

/-- The code that switches all styles off. -/
def reset : Text := ['\x1b', '[', '0', 'm']

/-- A text with a code behind every reset in it, so that its style lasts to its end. -/
def keepOn (on : Text) : Text → Text
  | '\x1b' :: '[' :: '0' :: 'm' :: rest => reset ++ on ++ keepOn on rest
  | c :: rest => c :: keepOn on rest
  | [] => []

/-- A text in a style, if colours are wanted. -/
def apply (s : Style) (colored : Bool) (t : Text) : Text :=
  if colored then s.code ++ keepOn s.code t ++ reset else t

end Style

/-- A text filled up with spaces to a width. -/
def padTo (width : Nat) (t : Text) : Text :=
  t ++ List.replicate (width - t.length) ' '

end SyntaxEdit
