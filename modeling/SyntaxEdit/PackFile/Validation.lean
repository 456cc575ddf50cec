/-
What has to hold of the definitions of a pack file before packs are built from them.

* `PackFile.issues` — everything that is wrong with a file, in the order of its definitions;
* `PackIssue.message` — the wording of an issue.

A file has at least one definition. A definition has a language. One that extends no pack has a
grammar and a query that is not blank. Node types with body rules have at least one rule, and the
level of indentation is made of spaces or tabs.
-/
import SyntaxEdit.PackFile.Definition

namespace SyntaxEdit

/-- Something wrong with a pack file, with the language of the definition if it has one. -/
inductive PackIssue where
  | noDefinitions
  | noLanguage
  | noGrammar (language : Option Text)
  | noQuery (language : Option Text)
  | noRules (language : Option Text) (rawType : String)
  | badIndentUnit (language : Option Text)
deriving DecidableEq

namespace PackIssue

/-- The wording of a field that is missing. -/
def missingField (language : Option Text) (field : String) : Text :=
  match language with
  | some l => "pack '".toList ++ l ++ "' missing required field '".toList ++ field.toList ++
      "'".toList
  | none => "pack missing required field '".toList ++ field.toList ++ "'".toList

/-- The wording of a field that does not fit. -/
def misfit (language : Option Text) (problem : Text) : Text :=
  match language with
  | some l => "pack '".toList ++ l ++ "' has invalid configuration: ".toList ++ problem
  | none => "invalid pack configuration: ".toList ++ problem

/-- The wording of an issue. -/
def message : PackIssue → Text
  | noDefinitions => "pack config contains no packs".toList
  | noLanguage => missingField none "language"
  | noGrammar language => missingField language "grammar"
  | noQuery language =>
    misfit language "a pack without 'extends' must define at least one query".toList
  | noRules language rawType =>
    misfit language ("body_map.".toList ++ rawType.toList ++ " has no rules".toList)
  | badIndentUnit language => misfit language "indent_unit must be spaces or tabs".toList

end PackIssue

namespace PackDefinition

/-- The language of a definition, if it is not blank. -/
def label? (d : PackDefinition) : Option Text :=
  let trimmed := Text.trim d.language
  if trimmed = [] then none else some trimmed

/-- Whether a definition gives a query that is not blank. -/
def hasQuery (d : PackDefinition) : Bool :=
  QueryCategory.all.any fun category =>
    (d.queries.get category).any fun query => !Text.isBlankText query

/-- Whether a text can be a level of indentation. -/
def isIndentUnit (unit : Text) : Bool :=
  !unit.isEmpty && unit.all isIndent

/-- Everything that is wrong with a definition. -/
def issues (d : PackDefinition) : List PackIssue :=
  (if d.label?.isNone then [.noLanguage] else []) ++
  (if d.base.isNone ∧ d.grammar.isNone then [.noGrammar d.label?] else []) ++
  (if d.base.isNone ∧ !d.hasQuery then [.noQuery d.label?] else []) ++
  ((d.bodyMap.entries.filter fun entry => entry.2.isEmpty).map fun entry =>
    .noRules d.label? entry.1) ++
  (if d.indentUnit.all isIndentUnit then [] else [.badIndentUnit d.label?])

end PackDefinition

namespace PackFile

/-- Everything that is wrong with a file. -/
def issues (file : PackFile) : List PackIssue :=
  (if file.definitions.isEmpty then [.noDefinitions] else []) ++
    file.definitions.flatMap PackDefinition.issues

/-- A file that packs can be built from has no issues. -/
def IsValid (file : PackFile) : Prop :=
  file.issues = []

end PackFile

end SyntaxEdit
