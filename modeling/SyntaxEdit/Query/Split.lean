/-
The top-level patterns of a query text.

* `splitPatterns` — the pieces of a text that start at an opening bracket outside all brackets.

What follows the closing bracket of a pattern, its captures above all, stays with it. Brackets in
strings and in comments do not count.
-/
import SyntaxEdit.Text.Blank

namespace SyntaxEdit

/-- Where in a query text a character stands. -/
inductive QueryContext where
  | code
  | comment
  | string
  /-- In a string, after a backslash. -/
  | escape
deriving DecidableEq

namespace QueryContext

/-- Where the next character stands. -/
def after (context : QueryContext) (c : Char) : QueryContext :=
  match context with
  | code => if c = ';' then comment else if c = '"' then string else code
  | comment => if c = '\n' then code else comment
  | string => if c = '\\' then escape else if c = '"' then code else string
  | escape => string

end QueryContext

/-- Whether a character opens a bracket. -/
def opensBracket (c : Char) : Bool := c = '(' || c = '['

/-- Whether a character closes a bracket. -/
def closesBracket (c : Char) : Bool := c = ')' || c = ']'

/-- The pattern whose characters have been met so far, in reverse; none before the first one. -/
def finishPattern : Option Text → List Text
  | none => []
  | some reversed => [Text.trim reversed.reverse]

/-- The patterns of the rest of a text, `depth` brackets deep and in a context. -/
def splitPatternsFrom (context : QueryContext) (depth : Nat) (current : Option Text) :
    Text → List Text
  | [] => finishPattern current
  | c :: rest =>
    let context' := context.after c
    if context = .code ∧ opensBracket c then
      if depth = 0 then
        finishPattern current ++ splitPatternsFrom context' 1 (some [c]) rest
      else splitPatternsFrom context' (depth + 1) (current.map (c :: ·)) rest
    else if context = .code ∧ closesBracket c then
      splitPatternsFrom context' (depth - 1) (current.map (c :: ·)) rest
    else splitPatternsFrom context' depth (current.map (c :: ·)) rest

/-- The top-level patterns of a query text, without the white space around them. -/
def splitPatterns (source : Text) : List Text :=
  splitPatternsFrom .code 0 none source

end SyntaxEdit
