/-
Compiled queries kept for later.

* `QueryCache.compile` — the engine of a query text, kept from before or new;
* `QueryCache.clear` — nothing kept.

A cache holds at most `QueryCache.capacity` engines. When a new one comes to a full cache, all
others go. What does not compile is not kept. Every engine made has a serial number, which tells
engines for equal texts apart.
-/
import SyntaxEdit.Query.Engine

namespace SyntaxEdit

/-- An engine with the grammar and the text it was made from, and its serial number. -/
structure CachedQuery where
  grammar : Grammar
  source : Text
  engine : QueryEngine
  serial : Nat

/-- The engines that are kept, and the number of engines made so far. -/
structure QueryCache where
  entries : List CachedQuery
  made : Nat

namespace QueryCache

/-- The number of engines that a cache can hold. -/
def capacity : Nat := 256

/-- The cache at the start. -/
def empty : QueryCache := ⟨[], 0⟩

/-- The number of engines that are kept. -/
def size (c : QueryCache) : Nat := c.entries.length

/-- The cache with nothing kept. -/
def clear (c : QueryCache) : QueryCache := { c with entries := [] }

@[simp] theorem entries_clear (c : QueryCache) : c.clear.entries = [] := rfl

/-- What is kept for a grammar and a text. -/
def find? (c : QueryCache) (grammar : Grammar) (source : Text) : Option CachedQuery :=
  c.entries.find? fun entry => entry.grammar = grammar ∧ entry.source = source

/-- The cache with a new engine. -/
def insert (c : QueryCache) (grammar : Grammar) (source : Text) (engine : QueryEngine) :
    QueryCache where
  entries := ⟨grammar, source, engine, c.made⟩ :: if c.size < capacity then c.entries else []
  made := c.made + 1

/-- The engine of a query text with its serial number, or why there is none, and the cache after
it. -/
def compile (c : QueryCache) (grammar : Grammar) (source : Text)
    (queries : QueryLibrary := QueryLibrary.basic) :
    Except InvalidQuery (QueryEngine × Nat) × QueryCache :=
  match c.find? grammar source with
  | some entry => (.ok (entry.engine, entry.serial), c)
  | none =>
    match QueryEngine.compile grammar source queries with
    | .ok engine => (.ok (engine, c.made), c.insert grammar source engine)
    | .error e => (.error e, c)

/-- The cache after the queries of a pack have been asked for, as for an index of constructs: first
the one for blocks. Blank queries are not. -/
def compilePack (c : QueryCache) (pack : LanguagePack)
    (queries : QueryLibrary := QueryLibrary.basic) : QueryCache :=
  [QueryCategory.blocks, .classes, .methods, .properties].foldl (fun c category =>
    let source := pack.queries.get category
    if Text.isBlankText source then c else (c.compile pack.grammar source queries).2) c

end QueryCache

end SyntaxEdit
