/-
Language packs: all that is known of a language, as data.

A pack names the grammar of a language, the file extensions that stand for it, four queries that
find its constructs, what kind each raw node type has, and how bodies are found. A pack for a
derived language starts as a copy of another and overrides parts of it.

* `LanguagePack.plain`, `LanguagePack.derive` — a pack from nothing, and a copy for another
  language;
* `LanguagePack.kindOf`, `LanguagePack.rawTypesOf`, `LanguagePack.rulesOf` — what the pack says of a
  node type.
-/
import SyntaxEdit.KeyTable
import SyntaxEdit.Language.Grammar
import SyntaxEdit.Language.Kind
import SyntaxEdit.Text.Blank
import SyntaxEdit.Text.Lowercase

namespace SyntaxEdit

/-- The four families of constructs that a pack has queries for. -/
inductive QueryCategory where
  | classes
  | methods
  | properties
  | blocks
deriving DecidableEq

namespace QueryCategory

/-- All categories. -/
def all : List QueryCategory := [classes, methods, properties, blocks]

/-- The name of a category. -/
def name : QueryCategory → String
  | classes => "classes"
  | methods => "methods"
  | properties => "properties"
  | blocks => "blocks"

/-- The category with a name. -/
def ofName? (s : String) : Option QueryCategory :=
  all.find? fun c => c.name = s

end QueryCategory

/-- One value for each category. -/
structure PerCategory (α : Type) where
  classes : α
  methods : α
  properties : α
  blocks : α
deriving DecidableEq

namespace PerCategory

variable {α : Type}

/-- The value of a category. -/
def get (p : PerCategory α) : QueryCategory → α
  | .classes => p.classes
  | .methods => p.methods
  | .properties => p.properties
  | .blocks => p.blocks

/-- The values with that of one category replaced. -/
def set (p : PerCategory α) (category : QueryCategory) (value : α) : PerCategory α :=
  match category with
  | .classes => { p with classes := value }
  | .methods => { p with methods := value }
  | .properties => { p with properties := value }
  | .blocks => { p with blocks := value }

end PerCategory

/-- The query texts of a pack. `@name` captures an identifier or a label, `@callee` the function
that a block calls, and any other capture the construct itself. -/
abbrev PackQueries := PerCategory Text

/-- Whether all queries are blank. -/
def PackQueries.isEmpty (queries : PackQueries) : Bool :=
  QueryCategory.all.all fun category => Text.isBlankText (queries.get category)

/-- All that is known of a language. -/
structure LanguagePack where
  /-- The lowercase id of the language. -/
  language : String
  grammar : Grammar
  /-- File extensions without their dot, in lowercase. -/
  extensions : List String
  queries : PackQueries
  /-- The kinds of raw node types. -/
  kindMap : KeyTable Kind
  /-- The rules that find the bodies of raw node types. -/
  bodyMap : KeyTable (List BodyRule)
  /-- The type of the child that holds the contents of a string literal. -/
  stringUnwrap : Option String
  /-- One level of indentation. -/
  indentUnit : Text
deriving DecidableEq

namespace LanguagePack

/-- A pack that knows nothing of its language but the grammar. -/
def plain (language : String) (grammar : Grammar) : LanguagePack where
  language := lowercaseString language
  grammar := grammar
  extensions := []
  queries := ⟨[], [], [], []⟩
  kindMap := .empty
  bodyMap := .empty
  stringUnwrap := none
  indentUnit := "    ".toList

/-- A copy of a pack for another language. Its extensions stay behind, since they name the language
it came from. -/
def derive (p : LanguagePack) (language : String) (grammar : Grammar) : LanguagePack :=
  { p with language := lowercaseString language, grammar := grammar, extensions := [] }

/-- An extension without leading dots, in lowercase. -/
def normalizeExtension (extension : String) : String :=
  String.ofList (Text.lowercase (extension.toList.dropWhile (· = '.')))

/-- The pack with other extensions. -/
def withExtensions (p : LanguagePack) (extensions : List String) : LanguagePack :=
  { p with extensions := extensions.map normalizeExtension }

/-- The pack with the query of one category replaced. -/
def withQuery (p : LanguagePack) (category : QueryCategory) (query : Text) : LanguagePack :=
  { p with queries := p.queries.set category query }

/-- The pack with the kinds of more node types. -/
def withKinds (p : LanguagePack) (kinds : List (String × Kind)) : LanguagePack :=
  { p with kindMap := p.kindMap.insertAll kinds }

/-- The pack with the body rules of more node types. -/
def withBodyRules (p : LanguagePack) (rules : List (String × List BodyRule)) : LanguagePack :=
  { p with bodyMap := p.bodyMap.insertAll rules }

/-- The pack with another type for the contents of string literals. -/
def withStringUnwrap (p : LanguagePack) (childType : String) : LanguagePack :=
  { p with stringUnwrap := some childType }

/-- The pack with another level of indentation. -/
def withIndentUnit (p : LanguagePack) (unit : Text) : LanguagePack :=
  { p with indentUnit := unit }

/-- The kind of a raw node type. -/
def kindOf (p : LanguagePack) (rawType : String) : Kind :=
  (p.kindMap.get? rawType).getD .unknown

/-- The raw node types that the pack maps to a kind, in ascending order. -/
def rawTypesOf (p : LanguagePack) (kind : Kind) : List String :=
  (p.kindMap.entries.filter fun entry => entry.2 = kind).map Prod.fst

/-- The rules that find the body of a raw node type. -/
def rulesOf (p : LanguagePack) (rawType : String) : List BodyRule :=
  (p.bodyMap.get? rawType).getD []

end LanguagePack

end SyntaxEdit
