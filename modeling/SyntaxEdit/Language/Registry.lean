/-
Registries: packs found by language id, by file extension, and by the path of a file.

* `Registry.insert` — a pack taken up; it replaces one with its language id, and its extensions now
  stand for it;
* `Registry.get` — the pack of a name, whatever its case, the blanks around it and its leading dots;
* `Registry.forPath` — the pack of a file, by its extension.
-/
import SyntaxEdit.Language.BuiltIn

namespace SyntaxEdit

/-- Why there is no pack. -/
inductive PackError where
  /-- No pack is known under a name. -/
  | unsupportedLanguage (name : Text)
  /-- A definition extends a pack that does not exist. -/
  | unknownBase (language : String) (base : Text)
deriving DecidableEq

/-- The wording of a missing pack. -/
def PackError.message : PackError → Text
  | .unsupportedLanguage name => "unsupported language: ".toList ++ name
  | .unknownBase language base =>
    "language pack '".toList ++ language.toList ++ "' extends unknown pack '".toList ++ base ++
      "'".toList

/-- Packs by language id, and language ids by file extension. -/
structure Registry where
  packs : KeyTable LanguagePack
  aliases : KeyTable String
deriving DecidableEq

namespace Registry

/-- The registry without packs. -/
def empty : Registry := ⟨.empty, .empty⟩

/-- The registry with a pack. -/
def insert (r : Registry) (pack : LanguagePack) : Registry where
  packs := r.packs.insert pack.language pack
  aliases := r.aliases.insertAll (pack.extensions.map fun extension => (extension, pack.language))

/-- The registry with several packs, taken up in order. -/
def withPacks (r : Registry) (packs : List LanguagePack) : Registry :=
  packs.foldl insert r

/-- The registry of some packs. -/
def ofPacks (packs : List LanguagePack) : Registry :=
  empty.withPacks packs

/-- The registry of the packs that are always available. -/
def builtIn : Registry :=
  ofPacks builtInPacks

/-- The key that a name is looked up by. -/
def normalizeName (name : Text) : String :=
  String.ofList (Text.lowercase ((Text.trim name).dropWhile (· = '.')))

/-- The pack of a language id or file extension. -/
def get? (r : Registry) (name : Text) : Option LanguagePack :=
  let key := normalizeName name
  let language := (r.aliases.get? key).getD key
  r.packs.get? language <|> r.packs.get? key

/-- The pack of a language id or file extension, or the name that is not known. -/
def get (r : Registry) (name : Text) : Except PackError LanguagePack :=
  match r.get? name with
  | some pack => .ok pack
  | none => .error (.unsupportedLanguage name)

/-- The language ids in ascending order. -/
def languages (r : Registry) : List String :=
  r.packs.keys

end Registry

/-! ### File extensions -/

/-- The name of the file that a path ends in: its last part, empty parts and `.` aside. A path that
ends in `..` names no file. -/
def fileName? (path : Text) : Option Text :=
  match ((Text.splitOn '/' path).filter fun part => part ≠ [] ∧ part ≠ ['.']).getLast? with
  | some ['.', '.'] => none
  | name => name

/-- What follows the last dot in the file name of a path. A dot at the start of the name is none
that an extension can follow. -/
def fileExtension? (path : Text) : Option Text := do
  let name ← fileName? path
  match name.reverse.dropWhile (· ≠ '.') with
  | [] => none
  | [_] => none
  | _ => some (Text.takeEndWhile (· ≠ '.') name)

/-- The pack of a file by its extension; where there is none, the path is not known. -/
def Registry.forPath (r : Registry) (path : Text) : Except PackError LanguagePack :=
  match fileExtension? path with
  | some extension => r.get extension
  | none => .error (.unsupportedLanguage path)

end SyntaxEdit
