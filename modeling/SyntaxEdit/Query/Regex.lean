/-
Regular expressions as the predicates of queries use them.

* `Regex` — expressions over characters, with the ends of the text and word boundaries;
* `Regex.ends` — where the matches that start at a position can end;
* `Regex.occursIn` — whether an expression matches somewhere in a text;
* `Regex.parse?` — the expression that a text denotes.

Flags, classes of Unicode properties and operations on classes are not read. A predicate with such
an expression is no condition.
-/
import SyntaxEdit.Text.Blank
import SyntaxEdit.Text.Decimal
import SyntaxEdit.Text.Word

namespace SyntaxEdit

/-- A part of a character class. -/
inductive ClassItem where
  | range (first last : Char)
  | word (negated : Bool)
  | digit (negated : Bool)
  | blank (negated : Bool)
deriving DecidableEq

/-- Whether a character belongs to a part of a class. -/
def ClassItem.contains : ClassItem → Char → Bool
  | range first last, c => first ≤ c && c ≤ last
  | word negated, c => isWord c != negated
  | digit negated, c => c.isDigit != negated
  | blank negated, c => isBlank c != negated

/-- The characters of any of some items, or of none of them. -/
structure CharClass where
  items : List ClassItem
  negated : Bool
deriving DecidableEq

/-- Whether a character belongs to a class. -/
def CharClass.contains (k : CharClass) (c : Char) : Bool :=
  (k.items.any fun item => item.contains c) != k.negated

/-- A regular expression. -/
inductive Regex where
  | empty
  | one (k : CharClass)
  | textStart
  | textEnd
  | wordBoundary (negated : Bool)
  | seq (first second : Regex)
  | either (first second : Regex)
  /-- Any number of matches in a row. -/
  | many (r : Regex)
deriving DecidableEq

namespace Regex

/-! ### Matching -/

/-- Positions, with those that at most `rounds` steps lead to from them. -/
def expand (step : Nat → List Nat) : Nat → List Nat → List Nat
  | 0, positions => positions
  | rounds + 1, positions => expand step rounds (positions ++ positions.flatMap step).eraseDups

/-- Whether a word starts or ends at a position. -/
def isBoundary (t : Text) (i : Nat) : Bool :=
  (i ≠ 0 && (t[i - 1]?).any isWord) != (t[i]?).any isWord

/-- The positions at which the matches that start at position `i` can end. -/
def ends (t : Text) : Regex → Nat → List Nat
  | empty, i => [i]
  | one k, i => if (t[i]?).any k.contains then [i + 1] else []
  | textStart, i => if i = 0 then [i] else []
  | textEnd, i => if i = t.length then [i] else []
  | wordBoundary negated, i => if isBoundary t i != negated then [i] else []
  | seq first second, i => ((first.ends t i).flatMap (second.ends t)).eraseDups
  | either first second, i => (first.ends t i ++ second.ends t i).eraseDups
  | many r, i => expand (r.ends t) t.length [i]

/-- Whether an expression matches somewhere in a text. -/
def occursIn (r : Regex) (t : Text) : Bool :=
  (List.range (t.length + 1)).any fun i => !(r.ends t i).isEmpty

/-! ### Reading -/

/-- The class of a single character. -/
def literal (c : Char) : Regex :=
  one ⟨[.range c c], false⟩

/-- A number of matches in a row. -/
def times (r : Regex) : Nat → Regex
  | 0 => empty
  | n + 1 => seq r (times r n)

/-- Up to a number of matches in a row. -/
def upTo (r : Regex) : Nat → Regex
  | 0 => empty
  | n + 1 => either (seq r (upTo r n)) empty

/-- The part of a class that a letter denotes after a backslash. -/
def namedClass? : Char → Option ClassItem
  | 'w' => some (.word false)
  | 'W' => some (.word true)
  | 'd' => some (.digit false)
  | 'D' => some (.digit true)
  | 's' => some (.blank false)
  | 'S' => some (.blank true)
  | _ => none

/-- The character that an escape which is no class denotes. -/
def escapedChar? : Char → Option Char
  | 'n' => some '\n'
  | 't' => some '\t'
  | 'r' => some '\r'
  | 'f' => some '\x0c'
  | 'v' => some '\x0b'
  | c => if c.isAlphanum then none else some c

/-- One character, or a named class, in square brackets. -/
def readClassAtom? : Text → Option (ClassItem × Text)
  | '\\' :: c :: rest =>
    match namedClass? c with
    | some item => some (item, rest)
    | none => (escapedChar? c).map fun d => (.range d d, rest)
  | c :: rest => some (.range c c, rest)
  | [] => none

/-- The items of a class up to its closing bracket. The fuel bounds their number. -/
def readClassItems? : Nat → Text → Option (List ClassItem × Text)
  | 0, _ => none
  | fuel + 1, t =>
    match t with
    | ']' :: rest => some ([], rest)
    | _ => do
      let (item, rest) ← readClassAtom? t
      let (item, rest) ← match item, rest with
        | .range first _, '-' :: c :: after =>
          if c = ']' then some (item, rest)
          else do
            match ← readClassAtom? (c :: after) with
            | (.range last _, final) =>
              if first ≤ last then some (.range first last, final) else none
            | _ => none
        | _, _ => some (item, rest)
      let (items, final) ← readClassItems? fuel rest
      some (item :: items, final)

/-- A class in square brackets; the text starts after the opening one. A closing bracket right at
the start stands for itself. -/
def readClass? (t : Text) : Option (Regex × Text) := do
  let (negated, t) := match t with
    | '^' :: rest => (true, rest)
    | _ => (false, t)
  let (first, t) := match t with
    | ']' :: rest => ([ClassItem.range ']' ']'], rest)
    | _ => ([], t)
  let (items, rest) ← readClassItems? (t.length + 1) t
  some (one ⟨first ++ items, negated⟩, rest)

/-- The numbers of a counted repetition; the text starts after the opening brace. -/
def readCount? (t : Text) : Option ((Nat × Option Nat) × Text) := do
  let inside := t.takeWhile (· ≠ '}')
  let rest ← match t.dropWhile (· ≠ '}') with
    | _ :: rest => some rest
    | [] => none
  match Text.splitOn ',' inside with
  | [n] => do
    let n ← Decimal.read? n
    some ((n, some n), rest)
  | [low, []] => do some ((← Decimal.read? low, none), rest)
  | [low, high] => do
    let low ← Decimal.read? low
    let high ← Decimal.read? high
    if low ≤ high then some ((low, some high), rest) else none
  | _ => none

/-- An expression with the repetitions that follow it. The fuel bounds their number. -/
def readRepeats? (r : Regex) : Nat → Text → Option (Regex × Text)
  | 0, _ => none
  | fuel + 1, t =>
    let lazy (rest : Text) : Text := match rest with
      | '?' :: after => after
      | _ => rest
    match t with
    | '*' :: rest => readRepeats? (many r) fuel (lazy rest)
    | '+' :: rest => readRepeats? (seq r (many r)) fuel (lazy rest)
    | '?' :: rest => readRepeats? (either r empty) fuel (lazy rest)
    | '{' :: rest => do
      let ((low, high), after) ← readCount? rest
      let repeated := match high with
        | some high => seq (times r low) (upTo r (high - low))
        | none => seq (times r low) (many r)
      readRepeats? repeated fuel (lazy after)
    | _ => some (r, t)

mutual

/-- Alternatives up to a closing bracket or the end. The fuel bounds the calls inside each other. -/
def readEither? : Nat → Text → Option (Regex × Text)
  | 0, _ => none
  | fuel + 1, t => do
    let (first, rest) ← readSeq? fuel t
    match rest with
    | '|' :: after => do
      let (second, final) ← readEither? fuel after
      some (either first second, final)
    | _ => some (first, rest)

/-- Expressions in a row. -/
def readSeq? : Nat → Text → Option (Regex × Text)
  | 0, _ => none
  | fuel + 1, t =>
    match t with
    | [] => some (empty, [])
    | '|' :: _ => some (empty, t)
    | ')' :: _ => some (empty, t)
    | _ => do
      let (atom, rest) ← readAtom? fuel t
      let (repeated, rest) ← readRepeats? atom (rest.length + 1) rest
      let (others, final) ← readSeq? fuel rest
      some (seq repeated others, final)

/-- One expression without its repetitions. -/
def readAtom? : Nat → Text → Option (Regex × Text)
  | 0, _ => none
  | fuel + 1, t =>
    match t with
    | '(' :: rest => do
      let body := match rest with
        | '?' :: ':' :: after => after
        | _ => rest
      match ← readEither? fuel body with
      | (r, ')' :: final) => some (r, final)
      | _ => none
    | '[' :: rest => readClass? rest
    | '^' :: rest => some (textStart, rest)
    | '$' :: rest => some (textEnd, rest)
    | '.' :: rest => some (one ⟨[.range '\n' '\n'], true⟩, rest)
    | '\\' :: 'b' :: rest => some (wordBoundary false, rest)
    | '\\' :: 'B' :: rest => some (wordBoundary true, rest)
    | '\\' :: c :: rest =>
      match namedClass? c with
      | some item => some (one ⟨[item], false⟩, rest)
      | none => (escapedChar? c).map fun d => (literal d, rest)
    | c :: rest => if c ∈ ['*', '+', '?', '{', '\\'] then none else some (literal c, rest)
    | [] => none

end

/-- The expression that a text denotes. -/
def parse? (t : Text) : Option Regex :=
  match readEither? (3 * t.length + 3) t with
  | some (r, []) => some r
  | _ => none

end Regex

end SyntaxEdit
