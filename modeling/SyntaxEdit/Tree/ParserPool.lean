/-
Parsers kept for reuse, one for each grammar.

A parser is set to a grammar once and for all. The pack that it is bound to goes with the trees that
it makes; since packs can share a grammar, a pooled parser is bound anew whenever it is used.

* `BoundParser.rebind` — a parser bound to another pack;
* `ParserPool.bind` — the pool with a parser bound to a pack;
* `ParserPool.parse` — the tree of a text by the pooled parser for a pack.
-/
import SyntaxEdit.Tree.SyntaxTree

namespace SyntaxEdit

/-- Whether a parser has parsed anything yet. -/
inductive ParseStatus where
  | notParsed
  | parsed
deriving DecidableEq

/-- The name of a status. -/
def ParseStatus.name : ParseStatus → String
  | notParsed => "not-parsed"
  | parsed => "parsed"

/-- A parser that is set to a grammar and bound to a pack. -/
structure BoundParser where
  grammar : Grammar
  pack : LanguagePack
  status : ParseStatus
deriving DecidableEq

namespace BoundParser

/-- A new parser for a pack, set to its grammar. -/
def new (pack : LanguagePack) : BoundParser := ⟨pack.grammar, pack, .notParsed⟩

/-- The parser bound to another pack, which must be for the grammar of the one it has: the parser
stays set to its own grammar. -/
def rebind (p : BoundParser) (pack : LanguagePack) : BoundParser := { p with pack := pack }

/-- The tree of a text, and the parser after it. -/
def parse (parser : Parser) (p : BoundParser) (t : Text)
    (queries : QueryLibrary := QueryLibrary.basic) : SyntaxTree × BoundParser :=
  let parsed := parser p.grammar t
  (⟨parsed.root, parsed.broken, t, p.pack, queries⟩, { p with status := .parsed })

end BoundParser

/-- Parsers by grammar. -/
structure ParserPool where
  parsers : List (Grammar × BoundParser)
deriving DecidableEq

namespace ParserPool

/-- The pool at the start. -/
def empty : ParserPool := ⟨[]⟩

/-- The number of grammars with a pooled parser. -/
def size (pool : ParserPool) : Nat := pool.parsers.length

/-- The pooled parser of a grammar. -/
def find? (pool : ParserPool) (grammar : Grammar) : Option BoundParser :=
  (pool.parsers.find? fun entry => entry.1 = grammar).map Prod.snd

/-- The pool with a parser for a grammar, in place of the one it has. -/
def put (pool : ParserPool) (grammar : Grammar) (p : BoundParser) : ParserPool :=
  ⟨(grammar, p) :: pool.parsers.filter fun entry => entry.1 ≠ grammar⟩

/-- The pooled parser for a pack, new or bound to the pack, and the pool after it. -/
def bind (pool : ParserPool) (pack : LanguagePack) : BoundParser × ParserPool :=
  let p := match pool.find? pack.grammar with
    | some p => p.rebind pack
    | none => .new pack
  (p, pool.put pack.grammar p)

/-- The tree of a text by the pooled parser for a pack, and the pool after it. -/
def parse (parser : Parser) (pool : ParserPool) (pack : LanguagePack) (t : Text)
    (queries : QueryLibrary := QueryLibrary.basic) : SyntaxTree × ParserPool :=
  let (p, pool) := pool.bind pack
  let (tree, p) := p.parse parser t queries
  (tree, pool.put pack.grammar p)

end ParserPool

end SyntaxEdit
