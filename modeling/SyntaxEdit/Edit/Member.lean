/-
New members of a body: where they go and how they are indented.

* `memberBlock` — content with the indentation of a member;
* `SyntaxTree.memberIndent` — the indentation of the members of a body;
* `SyntaxTree.appendSplice`, `SyntaxTree.insertSplice` — the splices that add a member at the end of
  a body, and before one of its members;
* `appendToEnd` — a text with content added at its end.
-/
import SyntaxEdit.Construct.Body
import SyntaxEdit.Indentation
import SyntaxEdit.Splice

namespace SyntaxEdit

/-- Content without the indentation its lines share, under another indentation and with given line
breaks. -/
def memberBlock (content indent : Text) (eol : LineBreak) : Text :=
  Text.withBreaks eol (indentBy indent (dedent content))

/-- A text with content at its end, a blank line between them and a line break after it. -/
def appendToEnd (t content : Text) : Text :=
  let eol := LineBreak.ofText t
  let trimmed := Text.trimEndWhile isBreak (content.dropWhile isBreak)
  let addition := Text.withBreaks eol (Text.unifyBreaks trimmed)
  let base := Text.trimEndWhile isBreak t
  if base = [] then addition ++ eol.text else base ++ eol.text ++ eol.text ++ addition ++ eol.text

namespace SyntaxTree

/-- The indentation of a new member of a body: that of the first member if it starts its line, and
otherwise one level more than the line on which the body closes, or else starts, has. -/
def memberIndent (t : SyntaxTree) (body : Located) : Except InvalidRange Text := do
  let oneLevelMore : Except InvalidRange Text := do
    let anchor := (body.closingDelimiter?.map Located.start).getD body.start
    return (← Text.lineIndent t.source anchor) ++ t.pack.indentUnit
  match body.namedChildren.head? with
  | some first =>
    if ← Text.startsLine t.source first.start then Text.lineIndent t.source first.start
    else oneLevelMore
  | none => oneLevelMore

/-- The splice that adds a member before the token that closes a body. A token that does not start
its line moves to a line of its own. -/
def appendBeforeClosing (t : SyntaxTree) (eol : LineBreak) (block : Text) (closing : Located) :
    Except InvalidRange Splice := do
  if ← Text.startsLine t.source closing.start then
    return .insert (← Text.lineStart t.source closing.start) (block ++ eol.text)
  else
    let indent ← Text.lineIndent t.source closing.start
    return ⟨← Text.indentBefore t.source closing.start, closing.start,
      eol.text ++ block ++ eol.text ++ indent⟩

/-- The splice that adds a member after a body that stands on the line of its header. The body moves
to a line of its own. -/
def appendAfterInline (t : SyntaxTree) (eol : LineBreak) (indent block : Text) (body : Located) :
    Except InvalidRange Splice := do
  let header ← Text.indentBefore t.source body.start
  let shown := Text.trimEnd (← Text.between t.source body.start body.stop)
  return ⟨header, body.start + Text.byteLength shown,
    eol.text ++ indent ++ shown ++ eol.text ++ block⟩

/-- The end of the last line of a body, before its line break. -/
def lastLineEnd (t : SyntaxTree) (body : Located) : Except InvalidRange Nat := do
  let (front, _) ← Text.cutAt t.source body.stop
  -- A body that ends with a newline has its last line before it.
  let anchor :=
    if body.start < body.stop ∧ front.getLast? = some '\n' then body.stop - 1 else body.stop
  let stop ← Text.lineEnd t.source anchor
  let (line, _) ← Text.cutAt t.source stop
  return if line.getLast? = some '\r' then stop - 1 else stop

/-- The splice that adds content as the last member of a body. -/
def appendSplice (t : SyntaxTree) (body : Located) (content : Text) :
    Except InvalidRange Splice := do
  let eol := LineBreak.ofText t.source
  let indent ← t.memberIndent body
  let block := memberBlock content indent eol
  match body.closingDelimiter? with
  | some closing => t.appendBeforeClosing eol block closing
  | none =>
    if ← Text.startsLine t.source body.start then
      return .insert (← t.lastLineEnd body) (eol.text ++ block)
    else t.appendAfterInline eol indent block body

/-- The splice that adds content before a member of a body, with the indentation of that member. -/
def insertSplice (t : SyntaxTree) (body anchor : Located) (content : Text) :
    Except InvalidRange Splice := do
  let eol := LineBreak.ofText t.source
  if ← Text.startsLine t.source anchor.start then
    let indent ← Text.lineIndent t.source anchor.start
    return .insert (← Text.lineStart t.source anchor.start)
      (memberBlock content indent eol ++ eol.text)
  else
    let indent ← t.memberIndent body
    return ⟨← Text.indentBefore t.source anchor.start, anchor.start,
      eol.text ++ memberBlock content indent eol ++ eol.text ++ indent⟩

end SyntaxTree

end SyntaxEdit
