/-
Packs built from the definitions of a pack file.

* `PackFile.build` — one pack for each definition. A definition extends the latest earlier pack of
  the file with that language, or else a pack of the registry;
* `PackFile.load` — a file read and checked;
* `PackFile.mergeInto` — a registry with the packs of a file.
-/
import SyntaxEdit.Language.Registry
import SyntaxEdit.PackFile.Validation

namespace SyntaxEdit

namespace PackDefinition

/-- The language id of a definition. -/
def languageId (d : PackDefinition) : String :=
  String.ofList (Text.lowercase (Text.trim d.language))

/-- The pack of a name among those built so far, the latest first, or else in a registry. -/
def findBase? (base : Registry) (built : List LanguagePack) (name : Text) : Option LanguagePack :=
  let key := Text.lowercase (Text.trim name)
  (built.reverse.find? fun p => p.language = String.ofList key) <|> base.get? key

/-- The pack that a definition starts from. -/
def startingPack (base : Registry) (built : List LanguagePack) (d : PackDefinition) :
    Except PackError LanguagePack :=
  match d.base with
  | some name =>
    match findBase? base built name with
    | some parent => .ok (parent.derive d.languageId (d.grammar.getD parent.grammar))
    | none => .error (.unknownBase d.languageId name)
  | none =>
    match d.grammar with
    | some grammar => .ok (.plain d.languageId grammar)
    | none => .error (.unsupportedLanguage d.languageId.toList)

/-- A pack with the queries that a definition gives. -/
def overrideQueries (d : PackDefinition) (pack : LanguagePack) : LanguagePack :=
  QueryCategory.all.foldl (fun p category =>
    match d.queries.get category with
    | some query => p.withQuery category query
    | none => p) pack

/-- A pack with everything that a definition gives. -/
def override (d : PackDefinition) (pack : LanguagePack) : LanguagePack :=
  let pack := ((pack.withExtensions (d.extensions.map String.ofList)).withKinds
    d.kindMap.entries).withBodyRules d.bodyMap.entries
  let pack := d.overrideQueries pack
  let pack := match d.stringUnwrap with
    | some childType => pack.withStringUnwrap (String.ofList childType)
    | none => pack
  match d.indentUnit with
  | some unit => pack.withIndentUnit unit
  | none => pack

/-- The packs built so far with that of one more definition. -/
def addTo (base : Registry) (built : List LanguagePack) (d : PackDefinition) :
    Except PackError (List LanguagePack) := do
  let start ← d.startingPack base built
  return built ++ [d.override start]

end PackDefinition

/-- Why a pack file gives no registry. -/
inductive PackFileError where
  /-- The file cannot be read, for a reason that the system gives. -/
  | unreadable (reason : Text)
  /-- The file is no document of the right shape. -/
  | malformed
  | invalid (issues : List PackIssue)
  | unbuildable (error : PackError)
deriving DecidableEq

namespace PackFileError

/-- The wording of what is behind an error. -/
def cause : PackFileError → Text
  | unreadable reason => reason
  | malformed => []
  | invalid issues => Text.joinWith ['\n'] (issues.map PackIssue.message)
  | unbuildable error => error.message

/-- The wording of an error up to its cause, with the file if it is known. -/
def heading (path : Option Text) (e : PackFileError) : Text :=
  let place (text : String) : Text := text.toList ++
    match path with
    | some p => " (".toList ++ p ++ ")".toList
    | none => []
  match e with
  | unreadable _ => "failed to read language packs from ".toList ++ path.getD []
  | malformed => place "failed to parse language pack TOML"
  | invalid _ => place "invalid language packs"
  | unbuildable _ => place "cannot build language packs"

/-- The wording of an error. -/
def message (path : Option Text) (e : PackFileError) : Text :=
  e.heading path ++ ": ".toList ++ e.cause

end PackFileError

namespace PackFile

/-- The packs of a file, one for each definition, in order. -/
def build (file : PackFile) (base : Registry) : Except PackError (List LanguagePack) :=
  file.definitions.foldlM (PackDefinition.addTo base) []

/-- The pack file that a text denotes, if nothing is wrong with it. -/
def load (t : Text) : Except PackFileError PackFile :=
  match Toml.parse? t >>= ofToml? with
  | none => .error .malformed
  | some file => if file.issues = [] then .ok file else .error (.invalid file.issues)

/-- A registry with the packs of a file taken up. -/
def mergeInto (file : PackFile) (base : Registry) : Except PackFileError Registry :=
  match file.build base with
  | .ok packs => .ok (base.withPacks packs)
  | .error e => .error (.unbuildable e)

/-- A registry with the packs that a text defines. -/
def extendRegistry (t : Text) (base : Registry) : Except PackFileError Registry := do
  (← load t).mergeInto base

end PackFile

end SyntaxEdit
