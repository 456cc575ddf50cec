/-
The grammars a language can be parsed with, and their names.

* `Grammar.name` — the lowercase name of a grammar;
* `Grammar.ofName?` — the grammar of a name;
* `ofName?_name` — every grammar is found by its name.
-/

namespace SyntaxEdit

/-- A grammar that source text is parsed with. -/
inductive Grammar where
  | bash
  | c
  | cpp
  | csharp
  | go
  | java
  | javascript
  | kotlin
  | lua
  | php
  | python
  | ruby
  | rust
  | scala
  | swift
  | tsx
  | typescript
deriving DecidableEq, Hashable

namespace Grammar

/-- All grammars. -/
def all : List Grammar :=
  [bash, c, cpp, csharp, go, java, javascript, kotlin, lua, php, python, ruby, rust, scala, swift,
   tsx, typescript]

/-- The lowercase name of a grammar. -/
def name : Grammar → String
  | bash => "bash"
  | c => "c"
  | cpp => "cpp"
  | csharp => "csharp"
  | go => "go"
  | java => "java"
  | javascript => "javascript"
  | kotlin => "kotlin"
  | lua => "lua"
  | php => "php"
  | python => "python"
  | ruby => "ruby"
  | rust => "rust"
  | scala => "scala"
  | swift => "swift"
  | tsx => "tsx"
  | typescript => "typescript"

/-- The grammar with a name. -/
def ofName? (s : String) : Option Grammar :=
  all.find? fun g => g.name = s

theorem ofName?_name (g : Grammar) : ofName? g.name = some g := by
  cases g <;> decide

end Grammar

end SyntaxEdit
