/-
Why a query text does not compile, and where.

* `QueryError.atRest` — the error for a problem at the rest of a text;
* `QueryError.message` — its wording, with a row and a byte column from one.

Rows are lines as `Text.rows` gives them, each counted with one byte for its break. A problem behind
the last line stands on no line.
-/
import SyntaxEdit.Text.Decimal
import SyntaxEdit.Text.LineBreak
import SyntaxEdit.Text.Word

namespace SyntaxEdit

/-- What is wrong with a query text. -/
inductive QueryProblem where
  | unknownType
  | unknownField
  | unknownCapture
  | syntaxError
deriving DecidableEq

/-- A problem, with its place and with the name or the line it is about. -/
structure QueryError where
  problem : QueryProblem
  row : Nat
  column : Nat
  /-- The unknown name, or the line of a syntax error if there is one. -/
  subject : Option Text
deriving DecidableEq

namespace QueryError

/-- The line that a byte offset stands on, with its number and the offset at which it starts; no
line if the offset is behind the last one. -/
def findLine (offset row start : Nat) : List Text → Nat × Nat × Option Text
  | [] => (row, start, none)
  | line :: rest =>
    let next := start + Text.byteLength line + 1
    if offset < next then (row, start, some line) else findLine offset (row + 1) next rest

/-- The characters that names in messages are made of. -/
def inName (c : Char) : Bool :=
  isWord c || c = '-'

/-- The start of a text up to the quote that closes it, with the escapes as written. -/
def untilQuote : Text → Text
  | [] => []
  | '"' :: _ => []
  | '\\' :: c :: rest => '\\' :: c :: untilQuote rest
  | c :: rest => c :: untilQuote rest

/-- The name at the start of the rest of a text; after a quote, everything up to the next one. -/
def nameAt (source rest : Text) : Text :=
  if (source.take (source.length - rest.length)).getLast? = some '"' then untilQuote rest
  else rest.takeWhile inName

/-- The error for a problem that stands where the rest of a text starts. -/
def atRest (source rest : Text) (problem : QueryProblem) : QueryError :=
  let offset := Text.byteLength source - Text.byteLength rest
  let (row, start, line) := findLine offset 0 0 (Text.rows source)
  ⟨problem, row, offset - start,
    match problem with
    | .syntaxError => line
    | _ => some (nameAt source rest)⟩

/-- The wording of an error. -/
def message (e : QueryError) : Text :=
  let subject := e.subject.getD []
  let explanation := match e.problem, e.subject with
    | .unknownType, _ => "Invalid node type ".toList ++ subject
    | .unknownField, _ => "Invalid field name ".toList ++ subject
    | .unknownCapture, _ => "Invalid capture name ".toList ++ subject
    | .syntaxError, none => "Invalid syntax:\nUnexpected EOF".toList
    | .syntaxError, some line =>
      "Invalid syntax:\n".toList ++ line ++ '\n' :: (List.replicate e.column ' ' ++ ['^'])
  "Query error at ".toList ++ Decimal.render (e.row + 1) ++ ':' :: Decimal.render (e.column + 1) ++
    ". ".toList ++ explanation

end QueryError

end SyntaxEdit
