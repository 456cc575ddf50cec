/-
Queries read from their text and checked against the names of a grammar.

* `Query.compile` — the query that a text denotes, or the first problem met in reading it.

The forms are: `(type child …)` for a named node, `(_)` for any named node, `_` for any node,
`"token"` for the node of a token, `[a b …]` for alternatives, `field: pattern`, a dot for an anchor
among children, `@name` after a pattern for a capture, `(pattern (#predicate …))` for a group, and
`;` for a comment up to the end of the line. A field is checked after the pattern it holds.

This is a part of the query language. Repetitions, groups of several siblings, fields that a node
must not have and supertypes do not compile, and a predicate that compares two captures asks for
nothing. So the reader is one instance of a `QueryLibrary`, and what is proved of trees holds for
any.
-/
import SyntaxEdit.Query.Error
import SyntaxEdit.Query.Pattern
import SyntaxEdit.Query.Vocabulary

namespace SyntaxEdit

namespace Query

/-- A problem, with the rest of the text from the place where it stands. -/
abbrev Problem := QueryProblem × Text

/-- What has been met in a text so far: the capture names in order of appearance, and the predicates
of the current top-level pattern. -/
structure Met where
  captures : List String
  predicates : List Predicate

/-- What has been met together with a capture. -/
def Met.withCapture (met : Met) (name : String) : Met :=
  if met.captures.contains name then met else { met with captures := met.captures ++ [name] }

/-! ### Blanks, names and strings -/

/-- The white space between the parts of a query. -/
def isSpace (c : Char) : Bool :=
  c = ' ' || c = '\n' || c = '\t' || c = '\r' || c = '\x0b' || c = '\x0c'

/-- A text without the white space and the comments at its start; `inComment` tells whether it
starts in a comment. -/
def skipSpaceFrom (inComment : Bool) : Text → Text
  | [] => []
  | c :: rest =>
    if inComment then skipSpaceFrom (c ≠ '\n') rest
    else if isSpace c then skipSpaceFrom false rest
    else if c = ';' then skipSpaceFrom true rest
    else c :: rest

/-- A text without the white space and the comments at its start. -/
def skipSpace (t : Text) : Text :=
  skipSpaceFrom false t

/-- The characters that a name can start with. -/
def startsName (c : Char) : Bool :=
  c.isAlphanum || c = '_' || c = '-'

/-- The characters that a name can hold after the first. -/
def inName (c : Char) : Bool :=
  startsName c || c = '.'

/-- The name at the start of a text and the rest, if there is a name. -/
def readName? (t : Text) : Option (String × Text) :=
  match t with
  | c :: _ =>
    if startsName c then some (String.ofList (t.takeWhile inName), t.dropWhile inName) else none
  | [] => none

/-- The character that an escape in a string denotes. -/
def escaped : Char → Char
  | 'n' => '\n'
  | 'r' => '\r'
  | 't' => '\t'
  | '0' => '\x00'
  | c => c

/-- The characters of a string up to its closing quote, on one line. -/
def readStringBody? : Text → Option (Text × Text)
  | [] => none
  | '"' :: rest => some ([], rest)
  | '\n' :: _ => none
  | '\\' :: c :: rest => (readStringBody? rest).map fun (s, final) => (escaped c :: s, final)
  | c :: rest => (readStringBody? rest).map fun (s, final) => (c :: s, final)

/-- A string in double quotes, which the text starts with. -/
def readString (t : Text) : Except Problem (Text × Text) :=
  match t with
  | '"' :: rest =>
    match readStringBody? rest with
    | some result => .ok result
    | none => .error (.syntaxError, t)
  | _ => .error (.syntaxError, t)

/-! ### Predicates -/

/-- An argument of a predicate. -/
inductive Argument where
  | capture (name : String)
  | text (value : Text)

/-- The arguments of a predicate up to its closing bracket. Captures have to be known. The fuel
bounds their number. -/
def readArguments (met : Met) : Nat → Text → Except Problem (List Argument × Text)
  | 0, t => .error (.syntaxError, t)
  | fuel + 1, t =>
    match t with
    | ')' :: rest => .ok ([], rest)
    | '@' :: rest =>
      match readName? rest with
      | none => .error (.syntaxError, rest)
      | some (name, after) =>
        if met.captures.contains name then do
          let (arguments, final) ← readArguments met fuel (skipSpace after)
          .ok (.capture name :: arguments, final)
        else .error (.unknownCapture, rest)
    | '"' :: _ => do
      let (value, after) ← readString t
      let (arguments, final) ← readArguments met fuel (skipSpace after)
      .ok (.text value :: arguments, final)
    | _ =>
      match readName? t with
      | none => .error (.syntaxError, t)
      | some (name, after) => do
        let (arguments, final) ← readArguments met fuel (skipSpace after)
        .ok (.text name.toList :: arguments, final)

/-- The condition that the name and the arguments of a predicate denote. Predicates of other forms
are no conditions. -/
def predicate? (name : String) (arguments : List Argument) : Option Predicate :=
  match name, arguments with
  | "eq?", [.capture c, .text s] => some (.isOneOf c [s] false)
  | "not-eq?", [.capture c, .text s] => some (.isOneOf c [s] true)
  | "any-of?", .capture c :: rest =>
    some (.isOneOf c (rest.filterMap fun a => match a with
      | .text s => some s
      | .capture _ => none) false)
  | "not-any-of?", .capture c :: rest =>
    some (.isOneOf c (rest.filterMap fun a => match a with
      | .text s => some s
      | .capture _ => none) true)
  | "match?", [.capture c, .text s] => (Regex.parse? s).map fun r => .contains c r false
  | "not-match?", [.capture c, .text s] => (Regex.parse? s).map fun r => .contains c r true
  | _, _ => none

/-- The text of a predicate after its opening bracket and `#`, if a text starts with one. -/
def predicateStart? : Text → Option Text
  | '(' :: rest =>
    match skipSpace rest with
    | '#' :: after => some after
    | _ => none
  | _ => none

/-- A predicate, which starts with its name. -/
def readPredicate (met : Met) (t : Text) : Except Problem (Met × Text) :=
  match readName? t with
  | none => .error (.syntaxError, t)
  | some (name, rest) =>
    match rest with
    | mark :: after =>
      if mark = '?' ∨ mark = '!' then do
        let body := skipSpace after
        let (arguments, final) ← readArguments met (body.length + 1) body
        let condition := predicate? (name.push mark) arguments
        .ok ({ met with predicates := met.predicates ++ condition.toList }, skipSpace final)
      else .error (.syntaxError, rest)
    | [] => .error (.syntaxError, rest)

/-! ### Patterns -/

/-- The captures that follow a pattern. The fuel bounds their number. -/
def readCaptures (met : Met) (pattern : Pattern) :
    Nat → Text → Except Problem (Pattern × Met × Text)
  | 0, t => .error (.syntaxError, t)
  | fuel + 1, t =>
    match t with
    | '@' :: rest =>
      match readName? rest with
      | none => .error (.syntaxError, rest)
      | some (name, after) =>
        readCaptures (met.withCapture name) (.captured pattern name) fuel (skipSpace after)
    | _ => .ok (pattern, met, t)

/-- The captures that follow a pattern, after white space. -/
def finish (met : Met) (pattern : Pattern) (t : Text) : Except Problem (Pattern × Met × Text) :=
  let rest := skipSpace t
  readCaptures met pattern (rest.length + 1) rest

/-- The test for the name of a named node, if the grammar knows it. -/
def testOfName? (grammar : Grammar) (name : String) : Option NodeTest :=
  if name = "_" then some .anyNamed
  else if grammar.knowsType name then some (.ofType name)
  else none

mutual

/-- A pattern with its captures. The fuel bounds the readers called inside each other. -/
def readPattern (grammar : Grammar) (met : Met) :
    Nat → Text → Except Problem (Pattern × Met × Text)
  | 0, t => .error (.syntaxError, t)
  | fuel + 1, t =>
    match t with
    | '[' :: rest => do
      let (alternatives, met, final) ← readAlternatives grammar met fuel (skipSpace rest)
      finish met (.oneOf alternatives) final
    | '(' :: rest => do
      let body := skipSpace rest
      match body with
      -- A second bracket, or a token, can only start the one pattern of a group.
      | '(' :: _ => readGroup grammar met fuel body
      | '"' :: _ => readGroup grammar met fuel body
      | '[' :: _ => readGroup grammar met fuel body
      | _ =>
        match readName? body with
        | none => .error (.syntaxError, body)
        | some (name, after) =>
          match testOfName? grammar name with
          | none => .error (.unknownType, body)
          | some test => do
            let (steps, met, final) ← readSteps grammar met fuel true (skipSpace after)
            finish met (.node test steps) final
    | '"' :: rest => do
      let (token, after) ← readString t
      if grammar.knowsToken (String.ofList token) then
        finish met (.node (.token (String.ofList token)) (.done false)) after
      else .error (.unknownType, rest)
    | '_' :: rest => finish met (.node .any (.done false)) rest
    | _ =>
      match readName? t with
      | none => .error (.syntaxError, t)
      | some (field, after) =>
        match skipSpace after with
        | ':' :: rest => do
          -- The name of the field is looked up last, so a fault in the pattern is reported first.
          let (pattern, met, final) ← readPattern grammar met fuel (skipSpace rest)
          if grammar.knowsField field then finish met (.inField field pattern) final
          else .error (.unknownField, t)
        | _ => .error (.syntaxError, t)

/-- One or more alternatives up to their closing bracket. -/
def readAlternatives (grammar : Grammar) (met : Met) :
    Nat → Text → Except Problem (List Pattern × Met × Text)
  | 0, t => .error (.syntaxError, t)
  | fuel + 1, t => do
    let (first, met, rest) ← readPattern grammar met fuel t
    match rest with
    | ']' :: after => .ok ([first], met, after)
    | _ => do
      let (others, met, final) ← readAlternatives grammar met fuel rest
      .ok (first :: others, met, final)

/-- The one pattern of a group, with predicates around it, up to the closing bracket. -/
def readGroup (grammar : Grammar) (met : Met) :
    Nat → Text → Except Problem (Pattern × Met × Text)
  | 0, t => .error (.syntaxError, t)
  | fuel + 1, t =>
    match predicateStart? t with
    | some start => do
      let (met, rest) ← readPredicate met start
      readGroup grammar met fuel rest
    | none => do
      let (pattern, met, rest) ← readPattern grammar met fuel t
      let (met, final) ← readGroupEnd met fuel rest
      finish met pattern final

/-- The predicates that may follow the pattern of a group, and its closing bracket. -/
def readGroupEnd (met : Met) : Nat → Text → Except Problem (Met × Text)
  | 0, t => .error (.syntaxError, t)
  | fuel + 1, t =>
    match t with
    | ')' :: rest => .ok (met, rest)
    | _ =>
      match predicateStart? t with
      | some start => do
        let (met, rest) ← readPredicate met start
        readGroupEnd met fuel rest
      | none => .error (.syntaxError, t)

/-- The patterns for the children of a node, with anchors and predicates, up to the closing bracket;
`first` tells whether no child has been asked for yet. -/
def readSteps (grammar : Grammar) (met : Met) :
    Nat → Bool → Text → Except Problem (Steps × Met × Text)
  | 0, _, t => .error (.syntaxError, t)
  | fuel + 1, first, t =>
    let (anchored, body) := match t with
      | '.' :: rest => (true, skipSpace rest)
      | _ => (false, t)
    match body with
    | ')' :: rest =>
      if anchored ∧ first then .error (.syntaxError, body) else .ok (.done anchored, met, rest)
    | _ =>
      match predicateStart? body with
      | some start => do
        let (met, rest) ← readPredicate met start
        readSteps grammar met fuel first rest
      | none => do
        let (pattern, met, rest) ← readPattern grammar met fuel body
        let (steps, met, final) ← readSteps grammar met fuel false rest
        .ok (.next anchored pattern steps, met, final)

end

/-- The top-level patterns of a text, which starts with none of the white space around them. The
fuel bounds their number. -/
def readTop (grammar : Grammar) (captures : List String) : Nat → Text → Except Problem Query
  | 0, t => .error (.syntaxError, t)
  | fuel + 1, t =>
    match t with
    | [] => .ok ⟨[], captures⟩
    | _ =>
      match predicateStart? t with
      | some start => do
        -- A predicate belongs into a pattern; a fault inside of it is reported before that.
        let _ ← readPredicate ⟨captures, []⟩ start
        .error (.syntaxError, t)
      | none => do
        let (pattern, met, rest) ← readPattern grammar ⟨captures, []⟩ (3 * t.length + 3) t
        let query ← readTop grammar met.captures fuel rest
        .ok ⟨⟨pattern, met.predicates⟩ :: query.patterns, query.captureNames⟩

/-- The query that a text denotes under the names of a grammar. -/
def compile (grammar : Grammar) (source : Text) : Except QueryError Query :=
  match readTop grammar [] (source.length + 1) (skipSpace source) with
  | .ok query => .ok query
  | .error (problem, rest) => .error (QueryError.atRest source rest problem)

end Query

end SyntaxEdit
