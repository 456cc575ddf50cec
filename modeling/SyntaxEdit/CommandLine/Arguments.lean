/-
The words of a command line, sorted into options and operands.

A command line has a level for each command word: the program, its command, and for some commands a
command of their own. Options of a level can stand before and after its operands. A word of one dash
and letters stands for several short options, the last of which may have its value behind it. Two
dashes end the options of a level. One dash alone is an operand.

* `readLevels` — what is given on each level, or why the words are refused.
-/
import SyntaxEdit.Text.Basic

namespace SyntaxEdit

/-- An option of any level. -/
inductive OptionName where
  | language
  | packs
  | json
  | verbose
  | version
  | help
  | dryRun
  | diff
  | force
  | before
deriving DecidableEq

/-- The commands, and the program itself. -/
inductive CommandName where
  | program
  | paths
  | locate
  | find
  | update
  | append
  | insertBefore
  | delete
  | lines
  | addLines
  | removeLines
  | updateLine
  | languages
deriving DecidableEq

/-- Why words are no command. -/
inductive Refusal where
  | usage
  | version
  | help
deriving DecidableEq

namespace OptionName

/-- The long word of an option. -/
def long : OptionName → String
  | language => "language"
  | packs => "packs"
  | json => "json"
  | verbose => "verbose"
  | version => "version"
  | help => "help"
  | dryRun => "dry-run"
  | diff => "diff"
  | force => "force"
  | before => "before"

/-- The letter of an option. -/
def short? : OptionName → Option Char
  | language => some 'l'
  | verbose => some 'v'
  | version => some 'V'
  | help => some 'h'
  | dryRun => some 'n'
  | diff => some 'd'
  | force => some 'f'
  | packs | json | before => none

/-- Whether an option has a value. -/
def takesValue : OptionName → Bool
  | language | packs | before => true
  | _ => false

/-- Whether an option can be given more than once on a level. -/
def isRepeatable (o : OptionName) : Bool :=
  o = before

end OptionName

namespace CommandName

/-- The options that any level has. -/
def globalOptions : List OptionName :=
  [.language, .packs, .json, .verbose, .help]

/-- The options of commands that write files. -/
def writeOptions : List OptionName :=
  [.dryRun, .diff, .force]

/-- The options of a level. -/
def options : CommandName → List OptionName
  | program => .version :: globalOptions
  | update | append | delete | lines => writeOptions ++ globalOptions
  | insertBefore => .before :: writeOptions ++ globalOptions
  | _ => globalOptions

/-- The command words of a level. -/
def commands : CommandName → List (String × CommandName)
  | program =>
    [("paths", paths), ("locate", locate), ("find", find), ("update", update), ("append", append),
      ("insert-before", insertBefore), ("delete", delete), ("lines", lines),
      ("languages", languages)]
  | lines => [("add", addLines), ("remove", removeLines), ("update", updateLine)]
  | _ => []

/-- The command of a level that a word names. -/
def command? (c : CommandName) (word : Text) : Option CommandName :=
  (c.commands.find? fun entry => entry.1.toList = word).map Prod.snd

/-- The option of a level with a long word. -/
def optionByWord? (c : CommandName) (word : Text) : Option OptionName :=
  c.options.find? fun o => o.long.toList = word

/-- The option of a level with a letter. -/
def optionByLetter? (c : CommandName) (letter : Char) : Option OptionName :=
  c.options.find? fun o => o.short? = some letter

end CommandName

/-- The options with their values, and the operands, that are given on a level. Options without a
value have the empty one. -/
structure Given where
  options : List (OptionName × Text)
  operands : List Text
deriving DecidableEq

namespace Given

/-- Nothing given. -/
def none : Given := ⟨[], []⟩

/-- Whether an option is given. -/
def has (g : Given) (o : OptionName) : Bool :=
  g.options.any fun entry => entry.1 = o

/-- The value of an option. -/
def value? (g : Given) (o : OptionName) : Option Text :=
  (g.options.find? fun entry => entry.1 = o).map Prod.snd

/-- The values of an option, in the order in which they are given. -/
def values (g : Given) (o : OptionName) : List Text :=
  (g.options.filter fun entry => entry.1 = o).map Prod.snd

/-- One more option. An option that can be given once is not given again, and a file that packs are
read from has a name. -/
def addOption (g : Given) (o : OptionName) (value : Text) : Except Refusal Given :=
  if o = .help then .error .help
  else if o = .version then .error .version
  else if (g.has o ∧ !o.isRepeatable) ∨ (o = .packs ∧ value = []) then .error .usage
  else .ok { g with options := g.options ++ [(o, value)] }

/-- One more operand. -/
def addOperand (g : Given) (word : Text) : Given :=
  { g with operands := g.operands ++ [word] }

end Given

/-- Whether a word is one or more options, or the end of them, so that it is no value. -/
def isOptionWord (word : Text) : Bool :=
  word.head? = some '-' && word ≠ ['-']

/-- A long option: its word, and its value if an equals sign follows. An option whose value is still
to come is given back. -/
def readLong (c : CommandName) (g : Given) (word : Text) :
    Except Refusal (Given × Option OptionName) := do
  let name := word.takeWhile (· ≠ '=')
  match c.optionByWord? name with
  | none => .error .usage
  | some o =>
    match word.drop name.length with
    | [] => if o.takesValue then return (g, some o) else return (← g.addOption o [], none)
    | _ :: value =>
      if o.takesValue then return (← g.addOption o value, none) else .error .usage

/-- Short options: their letters, and behind the letter of one with a value that value, before which
an equals sign can stand. -/
def readShort (c : CommandName) (g : Given) : Text → Except Refusal (Given × Option OptionName)
  | [] => .ok (g, none)
  | letter :: rest =>
    match c.optionByLetter? letter with
    | none => .error .usage
    | some o =>
      if o.takesValue then
        match rest with
        | [] => .ok (g, some o)
        | '=' :: value => do return (← g.addOption o value, none)
        | value => do return (← g.addOption o value, none)
      else do readShort c (← g.addOption o []) rest

/-- What is given on each level, from a level on of which some is known; `ended` tells whether its
options have ended. -/
def readLevels (c : CommandName) (g : Given) (ended : Bool) :
    List Text → Except Refusal (List (CommandName × Given))
  | [] => .ok [(c, g)]
  | word :: rest =>
    -- Behind two dashes even the name of a command is an operand.
    if ended then readLevels c (g.addOperand word) true rest
    else
      match c.command? word with
      | some inner => do return (c, g) :: (← readLevels inner .none false rest)
      | none =>
        if word = "help".toList ∧ c.commands ≠ [] then .error .help
        else if word = ['-', '-'] then readLevels c g true rest
        else if isOptionWord word then do
          let (g, pending) ← match word with
            | '-' :: '-' :: long => readLong c g long
            | _ => readShort c g (word.drop 1)
          match pending, rest with
          | none, rest => readLevels c g false rest
          | some _, [] => .error .usage
          -- The value of the last option is the next word, unless that is an option itself.
          | some o, value :: rest =>
            if isOptionWord value then .error .usage
            else readLevels c (← g.addOption o value) false rest
        else readLevels c (g.addOperand word) false rest
termination_by words => words.length

end SyntaxEdit
