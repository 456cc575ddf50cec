/-
Runs of the program.

* `Session.run` — what a command prints, whether it succeeds, and the file that it writes;
* `runProgram` — the same for the words of a command line.
-/
import SyntaxEdit.CommandLine.Failure
import SyntaxEdit.CommandLine.Invocation
import SyntaxEdit.CommandLine.Style
import SyntaxEdit.CommandLine.Workspace
import SyntaxEdit.Edit.Chain
import SyntaxEdit.Report.Basic

namespace SyntaxEdit

/-- What a run of the program depends on beside its words. -/
structure Surroundings where
  workspace : Workspace
  /-- The text on standard input. -/
  input : Text
  parser : Parser
  /-- Whether output is coloured. -/
  colored : Bool
  /-- The file of packs that a variable names. -/
  packsVariable : Option Text
  /-- The library that queries are run by. -/
  queries : QueryLibrary := QueryLibrary.basic

/-- What comes of a run: the exit code, the texts on standard output and standard error, and the
file that is written, by its parts, with its new text. -/
structure Outcome where
  code : Nat
  output : Text
  errors : Text
  written : Option (List Text × Text)
deriving DecidableEq

namespace Outcome

/-- A run that succeeds and prints a text. -/
def printed (output : Text) : Outcome := ⟨0, output, [], none⟩

/-- A run that fails and prints a text to standard error. -/
def failed (errors : Text) : Outcome := ⟨1, [], errors, none⟩

/-- A run that a failure ends. -/
def ofFailure (f : Failure) : Outcome := failed f.render

/-- The workspace after a run. -/
def workspaceAfter (o : Outcome) (w : Workspace) : Workspace :=
  match o.written with
  | some (parts, t) => w.write parts t
  | none => w

end Outcome

/-- The packs and settings of a run. -/
structure Session where
  surroundings : Surroundings
  registry : Registry
  language : Option Text
  json : Bool

namespace Session

/-! ### Files -/

/-- The pack for a file: that of the language asked for, or else that of its extension. -/
def packFor (s : Session) (file : Text) : Except PackError LanguagePack :=
  match s.language with
  | some language => s.registry.get language
  | none => s.registry.forPath file

/-- A file as a chain of edits, with the parts it is stored under. -/
def openFile (s : Session) (file : Text) : Except Failure (List Text × Editor) :=
  match s.packFor file with
  | .error e => .error (.pack e)
  | .ok pack =>
    match s.surroundings.workspace.read file with
    | .error reason => .error (.unreadable file reason)
    | .ok (parts, t) => .ok (parts, .ofText s.surroundings.parser pack t s.surroundings.queries)

/-- Whether there is a pack for a file. -/
def isKnown (s : Session) (file : Text) : Bool :=
  match s.packFor file with
  | .ok _ => true
  | .error _ => false

/-- The files that an input stands for: itself, or the files below it that there are packs for. -/
def filesOf (s : Session) (input : Text) : Except Failure (List Text) :=
  match s.surroundings.workspace.find input with
  | .file _ _ => .ok [input]
  | .folder parts => .ok ((s.surroundings.workspace.filesBelow input parts).filter s.isKnown)
  | place => .error (.unlisted input place.reason)

/-! ### Printing -/

/-- A text in a style, if output is coloured. -/
def styled (s : Session) (style : Style) (t : Text) : Text :=
  style.apply s.surroundings.colored t

/-- A text with a newline behind it. -/
def line (t : Text) : Text := t ++ ['\n']

/-- A JSON value on lines of its own. -/
def printJson (v : JsonValue) : Outcome :=
  .printed (line v.pretty)

/-! ### Commands that read -/

/-- The report on the paths of a file; a file that cannot be opened has none. -/
def pathsReport? (s : Session) (file : Text) : Option PathsReport :=
  match s.openFile file with
  | .ok (_, e) => some (.ofPaths file e.pack.language.toList e.tree.semanticPaths)
  | .error _ => none

/-- The paths of a file in lines. -/
def pathsText (s : Session) (r : PathsReport) : Text :=
  let summary := "(".toList ++ r.language ++ ", ".toList ++ Decimal.render r.paths.length ++
    " paths)".toList
  line (s.styled .bold r.file ++ ' ' :: s.styled .dimmed summary) ++
    r.paths.flatMap fun path => line ("  ".toList ++ path)

/-- List the semantic paths in files and folders. -/
def listPaths (s : Session) (inputs : List Text) : Outcome :=
  match inputs.mapM s.filesOf with
  | .error f => .ofFailure f
  | .ok files =>
    let reports := (sortPaths files.flatten).filterMap s.pathsReport?
    if s.json then printJson (.array (reports.map PathsReport.toJson))
    else .printed (reports.flatMap s.pathsText)

/-- The line of an occurrence. -/
def occurrenceLine (s : Session) (m : LocateMatch) : Text :=
  line (Decimal.render m.line ++ ':' :: Decimal.render m.column ++ ' ' :: s.styled .cyan m.path)

/-- Find the occurrences of a text. -/
def locate (s : Session) (file text : Text) : Outcome :=
  match s.openFile file with
  | .error f => .ofFailure f
  | .ok (_, e) =>
    let report := LocateReport.ofOccurrences file text e.pack.language.toList (e.tree.locate text)
    if s.json then printJson report.toJson
    else if report.found = [] then
      .printed (line (s.styled .yellow ("No occurrences of '".toList ++ text ++ "'".toList)))
    else .printed (report.found.flatMap s.occurrenceLine)

/-- The line of a node that was found. -/
def matchLine (s : Session) (m : FindMatch) : Text :=
  line (Decimal.render m.line ++ ':' :: Decimal.render m.column ++ ' ' :: s.styled .cyan m.path ++
    ' ' :: s.styled .dimmed m.description)

/-- The lines for a path that names nothing. -/
def noMatch (s : Session) (t : SyntaxTree) (path : Text) : Text :=
  let suggestions := t.suggest path
  line (s.styled .red ['✗'] ++ ' ' ::
    s.styled .red ("No match for '".toList ++ path ++ "'".toList)) ++
  if suggestions = [] then []
  else line ("  Did you mean: ".toList ++ Text.joinWith ", ".toList suggestions)

/-- Find the nodes that a semantic path names. -/
def findPath (s : Session) (file path : Text) : Outcome :=
  match s.openFile file with
  | .error f => .ofFailure f
  | .ok (_, e) =>
    let report := FindReport.ofMatches file path e.pack.language.toList (e.tree.findSemantic path)
    if s.json then printJson report.toJson
    else if report.found = [] then .failed (s.noMatch e.tree path)
    else .printed (report.found.flatMap s.matchLine)

/-- A pack as a JSON value. -/
def packJson (p : LanguagePack) : JsonValue :=
  .object [("extensions", .ofTexts (p.extensions.map String.toList)),
    ("grammar", .string p.grammar.name.toList), ("language", .string p.language.toList)]

/-- The line of a pack. -/
def packLine (s : Session) (p : LanguagePack) : Text :=
  line (s.styled .bold (padTo 12 p.language.toList) ++ ' ' ::
    s.styled .dimmed p.grammar.name.toList ++ ' ' ::
    Text.joinWith ", ".toList (p.extensions.map String.toList))

/-- List the languages. -/
def listLanguages (s : Session) : Outcome :=
  let packs := s.registry.packs.values
  if s.json then printJson (.array (packs.map packJson)) else .printed (packs.flatMap s.packLine)

/-! ### Commands that edit -/

/-- The word that an edit is reported under. -/
def actionOf : Edit → Text
  | .addLines _ _ => "add-lines".toList
  | .removeLines _ _ => "remove-lines".toList
  | .updateLine _ _ => "update-line".toList
  | .update _ _ _ => "update".toList
  | .delete _ _ => "delete".toList
  | .append _ _ => "append".toList
  | .insertBefore _ _ _ => "insert-before".toList

/-- The path or the lines that an edit is about. -/
def subjectOf : Edit → Text
  | .addLines after _ => "line ".toList ++ Decimal.render after
  | .removeLines start stop =>
    "lines ".toList ++ Decimal.render start ++ '-' :: Decimal.render stop
  | .updateLine line _ => "line ".toList ++ Decimal.render line
  | .update _ path _ => path
  | .delete _ path => path
  | .append parent _ => parent
  | .insertBefore parent _ _ => parent

/-- An edit with what stands for its content: one dash is the text on standard input. -/
def fillContent (input : Text) : Edit → Edit
  | .update how path content => .update how path (if content = ['-'] then input else content)
  | .append parent content => .append parent (if content = ['-'] then input else content)
  | .insertBefore parent content types =>
    .insertBefore parent (if content = ['-'] then input else content) types
  | change => change

/-- A report on an edit as an outcome, after what has been printed before it. -/
def reportEdit (s : Session) (r : EditReport) : Outcome :=
  let mark := if r.success then s.styled .green ['✓'] else s.styled .red ['✗']
  let text := line (mark ++ ' ' :: r.action ++ ' ' :: r.path ++ ": ".toList ++ r.message)
  let code := if r.success then 0 else 1
  if s.json then ⟨code, line r.toJson.pretty, [], none⟩
  else if r.success then ⟨code, text, [], none⟩
  else ⟨code, [], text, none⟩

/-- A line of a shown diff, with its newline. A line without a break gets one more. -/
def diffLine (s : Session) (kind : RunKind) (t : Text) : Text :=
  let missing := if endsLine t then [] else ['\n']
  let shown := kind.sign :: t ++ missing
  (match kind with
    | .kept => shown
    | .deleted => s.styled .red shown
    | .inserted => s.styled .green shown) ++ missing

/-- A shown hunk. -/
def hunkText (s : Session) (h : Hunk) : Text :=
  line (s.styled .cyan h.header) ++ h.lines.flatMap fun (kind, t) => s.diffLine kind t

/-- The changes of an edit, as they are shown. -/
def diffText (s : Session) (file : Text) (e : Editor) : Text :=
  line ('\n' :: s.styled .dimmed ("--- ".toList ++ file ++ " (original)".toList)) ++
    line (s.styled .dimmed ("+++ ".toList ++ file ++ " (edited)".toList)) ++
    (diffHunks e.firstText e.text).flatMap s.hunkText

/-- Whether the outcome of an edit is written. -/
def isWritten (options : WriteOptions) (e : Editor) : Bool :=
  e.isModified && !options.dryRun

/-- What is said of an edit that succeeds. -/
def successMessage (options : WriteOptions) (e : Editor) : Text :=
  let hunks := Decimal.render e.hunks ++ " hunk(s)".toList
  if !e.isModified then "no changes".toList
  else if options.dryRun then "dry run, ".toList ++ hunks ++ " not written".toList
  else hunks ++ " written".toList

/-- The outcome of an edit that succeeds, after some warnings. -/
def finishEdit (s : Session) (file : Text) (parts : List Text) (change : Edit)
    (options : WriteOptions) (warnings : Text) (e : Editor) : Outcome :=
  let diff := if options.diff then s.diffText file e else []
  let report := s.reportEdit
    ⟨file, subjectOf change, actionOf change, true, successMessage options e⟩
  { report with
    output := diff ++ report.output
    errors := warnings ++ report.errors
    written := if isWritten options e then some (parts, e.text) else none }

/-- Edit a file. An edit that brings in syntax errors fails, unless it is forced. -/
def editFile (s : Session) (file : Text) (change : Edit) (options : WriteOptions) : Outcome :=
  let fail (message : Text) : Outcome :=
    s.reportEdit ⟨file, subjectOf change, actionOf change, false, message⟩
  match s.openFile file with
  | .error f => .ofFailure f
  | .ok (parts, e) =>
    -- The file is written only after the edit and the check on its outcome have gone well.
    match e.edit s.surroundings.parser change with
    | .error problem => fail problem.message
    | .ok edited =>
      match edited.validate s.surroundings.parser with
      | .ok () => s.finishEdit file parts change options [] edited
      | .error problem =>
        if options.force then
          let warning := line (s.styled .yellow ("Warning: ".toList ++ problem.message))
          s.finishEdit file parts change options warning edited
        else fail (problem.message ++ " (use --force to write anyway)".toList)

/-- Run a command. -/
def run (s : Session) : Command → Outcome
  | .paths inputs => s.listPaths inputs
  | .locate file text => s.locate file text
  | .find file path => s.findPath file path
  | .edit file change options => s.editFile file (fillContent s.surroundings.input change) options
  | .languages => s.listLanguages

end Session

/-! ### The program -/

/-- The packs that are always available, with those of a file. -/
def registryWith (w : Workspace) : Option Text → Except Failure Registry
  | none => .ok .builtIn
  | some path =>
    match w.read path with
    | .error reason => .error (.packFile path (.unreadable reason))
    | .ok (_, t) =>
      match PackFile.extendRegistry t .builtIn with
      | .ok registry => .ok registry
      | .error e => .error (.packFile path e)

/-- The outcome of words that are no command. -/
def Refusal.outcome : Refusal → Outcome
  | usage => ⟨2, [], "error: the arguments name no command\n".toList, none⟩
  | version => .printed "treepath 0.1.0\n".toList
  | help => .printed "Usage: treepath [OPTIONS] <COMMAND>\n".toList

/-- Run the program with the words of a command line. -/
def runProgram (surroundings : Surroundings) (words : List Text) : Outcome :=
  match Invocation.read surroundings.packsVariable words with
  | .error refusal => refusal.outcome
  | .ok invocation =>
    match registryWith surroundings.workspace invocation.packs with
    | .error f => .ofFailure f
    | .ok registry =>
      Session.run ⟨surroundings, registry, invocation.language, invocation.json⟩ invocation.command

end SyntaxEdit
