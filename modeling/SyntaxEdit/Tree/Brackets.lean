/-
Trees for texts that no grammar has parsed.

Where the tree of a text is not at hand, its brackets still tell whether something is open that
should be closed. Such a tree has no nodes but the root and those that mark errors.

* `BracketReading.close` — what a closing bracket closes, and which brackets it leaves unclosed;
* `Parsed.ofBrackets` — the tree with the errors that the brackets of a text show;
* `Parser.ofTrees` — the parser that knows some trees, and the brackets of every other text.
-/
import SyntaxEdit.Text.Word
import SyntaxEdit.Tree.SyntaxTree

namespace SyntaxEdit

/-- A bracket that is open. -/
structure OpenBracket where
  /-- Where the word before the bracket starts; the bracket itself where there is none. -/
  wordStart : Nat
  offset : Nat
  closer : Char
deriving DecidableEq

/-- What has been read of the brackets of a text: those that are open, the innermost first, and the
byte ranges of those that do not fit, the last first. -/
structure BracketReading where
  opened : List OpenBracket
  misfits : List (Nat × Nat)
deriving DecidableEq

/-- The bracket that closes a bracket. -/
def closerOf? (c : Char) : Option Char :=
  match c with
  | '(' => some ')'
  | '[' => some ']'
  | '\x7b' => some '\x7d'
  | _ => none

/-- Whether a character closes some bracket. -/
def isCloser (c : Char) : Bool := c = ')' || c = ']' || c = '\x7d'

namespace BracketReading

/-- A closing bracket closes the innermost bracket that it fits, and the brackets inside of that one
stay unclosed. One that fits no open bracket stands alone. -/
def close (r : BracketReading) (offset : Nat) (c : Char) : BracketReading :=
  let inner := r.opened.takeWhile fun b => b.closer ≠ c
  match r.opened.dropWhile fun b => b.closer ≠ c with
  -- The brackets inside of the one that is closed can be closed no more.
  | _ :: outer => ⟨outer, inner.map (fun b => (b.wordStart, b.offset + 1)) ++ r.misfits⟩
  | [] => { r with misfits := (offset, offset + 1) :: r.misfits }

/-- The reading after one more character, at an offset that a word from `wordStart` leads up to. -/
def after (r : BracketReading) (wordStart offset : Nat) (c : Char) : BracketReading :=
  match closerOf? c with
  | some closer => { r with opened := ⟨wordStart, offset, closer⟩ :: r.opened }
  | none => if isCloser c then r.close offset c else r

/-- The reading after the rest of a text. -/
def afterText (r : BracketReading) (wordStart offset : Nat) : Text → BracketReading
  | [] => r
  | c :: rest =>
    let next := offset + c.utf8Size
    (r.after wordStart offset c).afterText (if isWord c then wordStart else next) next rest

end BracketReading

namespace Parsed

/-- A node for a part of a text that makes no sense. -/
def misfitNode (start stop : Nat) : Node :=
  .mk ⟨"ERROR", true, false, true, false, start, stop, none⟩ []

/-- A node for a closing bracket that is not there. -/
def missingNode (offset : Nat) (closer : Char) : Node :=
  .mk ⟨String.singleton closer, false, true, false, false, offset, offset, none⟩ []

/-- The tree with the errors that the brackets of a text show. One bracket that is open at the end
is closed there; with several of them the whole text makes no sense. -/
def ofBrackets (t : Text) : Parsed :=
  let reading := BracketReading.afterText ⟨[], []⟩ 0 0 t
  let start := Text.byteLength (t.takeWhile isBlank)
  let stop := Text.byteLength t
  match reading.opened with
  | _ :: _ :: _ => ⟨misfitNode start stop, true⟩
  | opened =>
    let misfits := reading.misfits.mergeSort fun a b => a.1 ≤ b.1
    let errors := misfits.map (fun range => misfitNode range.1 range.2) ++
      opened.map fun b => missingNode (Text.byteLength (Text.trimEnd t)) b.closer
    ⟨.mk ⟨"text", true, false, false, false, start, stop, none⟩ errors, !errors.isEmpty⟩

end Parsed

/-- The parser that knows some trees, and nothing but the brackets of every other text. -/
def Parser.ofTrees (trees : List (Grammar × Text × Parsed)) : Parser := fun grammar t =>
  match trees.find? fun entry => entry.1 = grammar ∧ entry.2.1 = t with
  | some (_, _, parsed) => parsed
  | none => .ofBrackets t

end SyntaxEdit
