/-
When the program writes a file.

Several gates stand between an edit and the file that it is about: the edit can fail, its outcome
can hold new syntax errors or be the text that was there, and writing can be turned off.  Each of
them has its own way to end the run and to report it.

* `Workspace.find_write` — writing a file changes what its own path leads to, and nothing else;
* `Session.Reports` — a run prints a report on an edit, and exits as the report says;
* `Session.Passes` — the edit succeeds, and its outcome holds no new syntax errors or is forced;
* `Session.run_edit_cases` — all that a command that edits can do;
* `runProgram_edit` — so a run writes an outcome that passes, if it is another text and writing is
  on, and keeps all files as they are in every other case; and it succeeds if the outcome passes.
-/
import SyntaxEdit.CommandLine.Session
import SyntaxEdit.Proofs.EditHistory

namespace SyntaxEdit

/-! ### Written workspaces -/

namespace Workspace

variable (w : Workspace) (parts other : List Text) (t path : Text)

theorem content?_write :
    (w.write parts t).content? other =
      (w.content? other).map fun content => if other = parts then .text t else content := by
  -- Entries keep their parts, so the look-up stops at the same entry.
  have hkey : (fun entry : List Text × FileContent => decide (entry.1 = other)) ∘
      (fun entry => if entry.1 = parts then (parts, .text t) else entry) =
        fun entry => decide (entry.1 = other) := by
    funext entry
    by_cases hentry : entry.1 = parts <;> simp [hentry]
  rw [content?, write, List.find?_map, hkey, content?]
  cases hfound : w.files.find? fun entry => decide (entry.1 = other) with
  | none => rfl
  | some entry =>
    have hentry : entry.1 = other := by simpa using List.find?_some hfound
    by_cases hparts : entry.1 = parts <;> simp [← hentry, hparts]

theorem isFolder_write : (w.write parts t).isFolder other = w.isFolder other := by
  simp only [isFolder, write, List.any_map]
  congr 2
  funext entry
  by_cases hentry : entry.1 = parts <;> simp [hentry]

end Workspace

/-- A place after another text has been written to a file. -/
def Place.afterWrite (parts : List Text) (t : Text) : Place → Place
  | .file found content => .file found (if found = parts then .text t else content)
  | place => place

namespace Workspace

variable (w : Workspace) (parts : List Text) (t path : Text)

/-- Files and folders stay where they are. -/
theorem findFrom_write (here rest : List Text) :
    (w.write parts t).findFrom here rest = (w.findFrom here rest).afterWrite parts t := by
  induction rest generalizing here with
  | nil => rfl
  | cons part rest ih =>
    rw [findFrom, findFrom]
    by_cases hskip : part = [] ∨ part = ['.']
    · rw [if_pos hskip, if_pos hskip]
      exact ih here
    rw [if_neg hskip, if_neg hskip]
    by_cases hup : part = ['.', '.']
    · rw [if_pos hup, if_pos hup]
      by_cases htop : here = []
      · rw [if_pos htop, if_pos htop]
        rfl
      · rw [if_neg htop, if_neg htop]
        exact ih here.dropLast
    rw [if_neg hup, if_neg hup]
    -- The way goes on through folders alone; only the last part can meet the file that is written.
    simp only [content?_write, isFolder_write]
    cases w.content? (here ++ [part]) with
    | some content => by_cases hlast : rest = [] <;> simp [hlast, Place.afterWrite]
    | none =>
      by_cases hfolder : w.isFolder (here ++ [part]) = true
      · simpa [hfolder] using ih (here ++ [part])
      · simp [hfolder, Place.afterWrite]

theorem find_write : (w.write parts t).find path = (w.find path).afterWrite parts t := by
  rw [find.eq_def, find.eq_def]
  split
  · rfl
  · rfl
  · exact findFrom_write w parts t _ _

variable {w parts t path} {before : Text}

theorem read_eq_ok_iff : w.read path = .ok (parts, t) ↔ w.find path = .file parts (.text t) := by
  rw [read]
  split
  · rename_i found content hfound
    rw [hfound]
    simp
  · rename_i place hplace
    simp only [reduceCtorEq, false_iff]
    exact hplace parts t

theorem content?_write_of_ne {other : List Text} (h : other ≠ parts) :
    (w.write parts t).content? other = w.content? other := by
  simp [content?_write, h]

/-- What was written is what is read. -/
theorem read_write (h : w.read path = .ok (parts, before)) :
    (w.write parts t).read path = .ok (parts, t) := by
  rw [read_eq_ok_iff] at h ⊢
  rw [find_write, h, Place.afterWrite, if_pos rfl]

end Workspace

namespace Outcome

variable {o : Outcome} {w : Workspace} {parts : List Text} {t : Text}

theorem workspaceAfter_of_eq_some (h : o.written = some (parts, t)) :
    o.workspaceAfter w = w.write parts t := by
  rw [workspaceAfter, h]

theorem workspaceAfter_of_eq_none (h : o.written = none) : o.workspaceAfter w = w := by
  rw [workspaceAfter, h]

end Outcome

/-! ### Reports -/

namespace Session

variable {s : Session} {file before warnings message : Text} {change : Edit}
  {options : WriteOptions} {parts : List Text} {pack : LanguagePack} {edited : Editor} {o : Outcome}
  {report : EditReport}

/-- The report on an edit that was asked for. -/
def reportOn (file : Text) (change : Edit) (success : Bool) (message : Text) : EditReport :=
  ⟨file, subjectOf change, actionOf change, success, message⟩

/-- What stands for the content of an edit does not show in the report. -/
theorem reportOn_fillContent (input file : Text) (change : Edit) (success : Bool) (message : Text) :
    reportOn file (fillContent input change) success message =
      reportOn file change success message := by
  cases change <;> rfl

/-- Whether a run prints a report and exits as the report says. Nothing stands beside the report but
the changes, if they are asked for, and warnings about an edit that is forced. -/
structure Reports (s : Session) (options : WriteOptions) (report : EditReport) (o : Outcome) :
    Prop where
  output_eq : ∃ shown, o.output = shown ++ (s.reportEdit report).output ∧
    (options.diff = false → shown = [])
  errors_eq : ∃ warnings, o.errors = warnings ++ (s.reportEdit report).errors ∧
    (options.force = false → warnings = [])
  code_eq : o.code = if report.success then 0 else 1

theorem Reports.code_eq_zero_iff (h : Reports s options report o) :
    o.code = 0 ↔ report.success = true := by
  rw [h.code_eq]
  cases report.success <;> simp

theorem reportEdit_code (s : Session) (report : EditReport) :
    (s.reportEdit report).code = if report.success then 0 else 1 := by
  rw [reportEdit]
  by_cases hjson : s.json <;> by_cases hsuccess : report.success <;> simp [hjson, hsuccess]

theorem reportEdit_written (s : Session) (report : EditReport) :
    (s.reportEdit report).written = none := by
  rw [reportEdit]
  by_cases hjson : s.json <;> by_cases hsuccess : report.success <;> simp [hjson, hsuccess]

theorem reports_reportEdit (s : Session) (options : WriteOptions) (report : EditReport) :
    Reports s options report (s.reportEdit report) :=
  ⟨⟨[], rfl, fun _ => rfl⟩, ⟨[], rfl, fun _ => rfl⟩, s.reportEdit_code report⟩

theorem reports_finishEdit (hwarnings : options.force = false → warnings = []) :
    Reports s options (reportOn file change true (successMessage options edited))
      (s.finishEdit file parts change options warnings edited) := by
  refine ⟨⟨_, rfl, fun hdiff => ?_⟩, ⟨warnings, rfl, hwarnings⟩, s.reportEdit_code _⟩
  rw [hdiff]
  rfl

/-! ### Editing a file -/

section editFile

variable {e : Editor} {problem : EditError} (hopen : s.openFile file = .ok (parts, e))
include hopen

theorem editFile_of_edit_eq_error (hedit : e.edit s.surroundings.parser change = .error problem) :
    s.editFile file change options =
      s.reportEdit (reportOn file change false problem.message) := by
  simp only [editFile, hopen, hedit]
  rfl

variable (hedit : e.edit s.surroundings.parser change = .ok edited)
include hedit

theorem editFile_of_validate_eq_ok (hvalid : edited.validate s.surroundings.parser = .ok ()) :
    s.editFile file change options = s.finishEdit file parts change options [] edited := by
  simp only [editFile, hopen, hedit, hvalid]

variable (hinvalid : edited.validate s.surroundings.parser = .error problem)
include hinvalid

theorem editFile_of_force (hforce : options.force = true) :
    s.editFile file change options = s.finishEdit file parts change options
      (line (s.styled .yellow ("Warning: ".toList ++ problem.message))) edited := by
  simp only [editFile, hopen, hedit, hinvalid, hforce, if_true]

theorem editFile_of_not_force (hforce : options.force = false) :
    s.editFile file change options = s.reportEdit (reportOn file change false
      (problem.message ++ " (use --force to write anyway)".toList)) := by
  simp only [editFile, hopen, hedit, hinvalid, hforce]
  rfl

end editFile

/-- Whether an edit of a file with some text passes with an outcome: it succeeds, and its outcome
holds no new syntax errors unless it is forced. -/
def Passes (s : Session) (pack : LanguagePack) (before : Text) (change : Edit)
    (options : WriteOptions) (edited : Editor) : Prop :=
  (Editor.ofText s.surroundings.parser pack before s.surroundings.queries).edit
      s.surroundings.parser (fillContent s.surroundings.input change) = .ok edited ∧
    (edited.validate s.surroundings.parser = .ok () ∨ options.force = true)

/-- What passes is written if it is another text and writing is on. -/
theorem Passes.isWritten_iff (h : Passes s pack before change options edited) :
    isWritten options edited = true ↔ edited.text ≠ before ∧ options.dryRun = false := by
  have hfirst := ((Editor.inChain_ofText s.surroundings.parser s.surroundings.queries pack
    before).edit h.1).firstText_eq
  rw [isWritten, Bool.and_eq_true, ← Bool.not_eq_false, Editor.isModified_eq_false_iff, hfirst,
    Bool.not_eq_true']

theorem Passes.unique {edited' : Editor} (h : Passes s pack before change options edited)
    (h' : Passes s pack before change options edited') : edited' = edited :=
  Except.ok.inj (h'.1.symm.trans h.1)

theorem openFile_eq_ok (hpack : s.packFor file = .ok pack)
    (hfile : s.surroundings.workspace.read file = .ok (parts, before)) :
    s.openFile file =
      .ok (parts, .ofText s.surroundings.parser pack before s.surroundings.queries) := by
  rw [openFile, hpack]
  simp only [hfile]

/-- A command that edits a file either passes, and then writes the outcome if that is another text
and writing is on, and reports success; or it does not, and then writes nothing and reports
failure. -/
theorem run_edit_cases (change : Edit) (options : WriteOptions) (hpack : s.packFor file = .ok pack)
    (hfile : s.surroundings.workspace.read file = .ok (parts, before)) :
    (∃ edited message, Passes s pack before change options edited ∧
      Reports s options (reportOn file change true message) (s.run (.edit file change options)) ∧
      (s.run (.edit file change options)).written =
        if isWritten options edited then some (parts, edited.text) else none) ∨
    (∃ message, (∀ edited, ¬Passes s pack before change options edited) ∧
      Reports s options (reportOn file change false message) (s.run (.edit file change options)) ∧
      (s.run (.edit file change options)).written = none) := by
  have hopen := openFile_eq_ok hpack hfile
  -- The run has four ends: the edit fails, or its outcome is valid, forced, or refused.
  simp only [← reportOn_fillContent s.surroundings.input file change, run]
  cases hedit : (Editor.ofText s.surroundings.parser pack before s.surroundings.queries).edit
      s.surroundings.parser (fillContent s.surroundings.input change) with
  | error problem =>
    rw [editFile_of_edit_eq_error hopen hedit]
    refine Or.inr ⟨_, ?_, reports_reportEdit s options _, reportEdit_written s _⟩
    rintro edited ⟨hedited, -⟩
    rw [hedit] at hedited
    cases hedited
  | ok edited =>
    cases hvalid : edited.validate s.surroundings.parser with
    | ok =>
      rw [editFile_of_validate_eq_ok hopen hedit hvalid]
      exact Or.inl ⟨edited, _, ⟨hedit, Or.inl hvalid⟩, reports_finishEdit fun _ => rfl, rfl⟩
    | error problem =>
      cases hforce : options.force with
      | true =>
        rw [editFile_of_force hopen hedit hvalid hforce]
        exact Or.inl ⟨edited, _, ⟨hedit, Or.inr hforce⟩,
          reports_finishEdit fun hoff => absurd (hforce.symm.trans hoff) (by decide), rfl⟩
      | false =>
        rw [editFile_of_not_force hopen hedit hvalid hforce]
        refine Or.inr ⟨_, ?_, reports_reportEdit s options _, reportEdit_written s _⟩
        rintro edited' ⟨hedited, hpasses⟩
        obtain rfl := Except.ok.inj (hedit.symm.trans hedited)
        rw [hvalid, hforce] at hpasses
        simp at hpasses

end Session

/-! ### The program -/

theorem runProgram_eq_run {s : Session} {words : List Text} {packs : Option Text}
    {command : Command} (hread : Invocation.read s.surroundings.packsVariable words =
      .ok ⟨s.language, packs, s.json, command⟩)
    (hregistry : registryWith s.surroundings.workspace packs = .ok s.registry) :
    runProgram s.surroundings words = s.run command := by
  rw [runProgram, hread]
  simp only [hregistry]

/-- The files after a run of the program. -/
def Surroundings.filesAfter (surroundings : Surroundings) (words : List Text) : Workspace :=
  (runProgram surroundings words).workspaceAfter surroundings.workspace

/-- **A file is written exactly when it may be.**  Words that ask for an edit of a file that can be
read, in a language that there is a pack for, leave the edited text in it if the edit succeeds, with
another text than before, without new syntax errors or by force, and not as a dry run.  In every
other case all files stay as they are, and the other files stay in any case.  The exit code is 0 if
the edit succeeds without new syntax errors or by force, and 1 otherwise, and the report agrees. -/
theorem runProgram_edit {s : Session} {words : List Text} {packs : Option Text} {file before : Text}
    {change : Edit} {options : WriteOptions} {pack : LanguagePack} {parts : List Text}
    (hread : Invocation.read s.surroundings.packsVariable words =
      .ok ⟨s.language, packs, s.json, .edit file change options⟩)
    (hregistry : registryWith s.surroundings.workspace packs = .ok s.registry)
    (hpack : s.packFor file = .ok pack)
    (hfile : s.surroundings.workspace.read file = .ok (parts, before)) :
    (∀ edited, s.Passes pack before change options edited → edited.text ≠ before →
      options.dryRun = false →
      (s.surroundings.filesAfter words).read file = .ok (parts, edited.text)) ∧
    ((∀ edited, s.Passes pack before change options edited →
      edited.text = before ∨ options.dryRun = true) →
      s.surroundings.filesAfter words = s.surroundings.workspace) ∧
    (∀ other, other ≠ parts → (s.surroundings.filesAfter words).content? other =
      s.surroundings.workspace.content? other) ∧
    ((runProgram s.surroundings words).code = 0 ↔
      ∃ edited, s.Passes pack before change options edited) ∧
    ∃ success message,
      s.Reports options (Session.reportOn file change success message)
        (runProgram s.surroundings words) ∧
      (success = true ↔ (runProgram s.surroundings words).code = 0) := by
  rw [Surroundings.filesAfter, runProgram_eq_run hread hregistry]
  obtain ⟨edited, message, hpasses, hreports, hwritten⟩ | ⟨message, hnone, hreports, hwritten⟩ :=
    Session.run_edit_cases change options hpack hfile
  · -- The edit has one outcome at most, so the one that passes is the one that is written.
    have hcode := hreports.code_eq_zero_iff.2 rfl
    refine ⟨fun edited' hpasses' hdiffers hdry => ?_, fun hstays => ?_, fun other hother => ?_,
      ⟨fun _ => ⟨edited, hpasses⟩, fun _ => hcode⟩, true, message, hreports, fun _ => hcode,
      fun _ => rfl⟩
    · obtain rfl := hpasses.unique hpasses'
      have hwrites := hpasses.isWritten_iff.2 ⟨hdiffers, hdry⟩
      rw [Outcome.workspaceAfter_of_eq_some (hwritten.trans (if_pos hwrites))]
      exact Workspace.read_write hfile
    · have hkeeps : ¬Session.isWritten options edited = true := by
        rw [hpasses.isWritten_iff]
        rintro ⟨hdiffers, hdry⟩
        rcases hstays edited hpasses with hsame | hdry'
        · exact hdiffers hsame
        · exact absurd (hdry.symm.trans hdry') (by decide)
      exact Outcome.workspaceAfter_of_eq_none (hwritten.trans (if_neg hkeeps))
    · -- Whether or not the file is written, no other file is.
      by_cases hwrites : Session.isWritten options edited = true
      · rw [Outcome.workspaceAfter_of_eq_some (hwritten.trans (if_pos hwrites)),
          Workspace.content?_write_of_ne hother]
      · rw [Outcome.workspaceAfter_of_eq_none (hwritten.trans (if_neg hwrites))]
  · -- Nothing was written, so the program failed and all files are as they were.
    have hcode : (s.run (.edit file change options)).code ≠ 0 := fun hzero =>
      Bool.false_ne_true (hreports.code_eq_zero_iff.1 hzero)
    rw [Outcome.workspaceAfter_of_eq_none hwritten]
    refine ⟨fun edited hpasses => absurd hpasses (hnone edited), fun _ => rfl, fun _ _ => rfl,
      ⟨fun hzero => absurd hzero hcode, fun ⟨edited, hpasses⟩ => absurd hpasses (hnone edited)⟩,
      false, message, hreports, fun hfalse => absurd hfalse Bool.false_ne_true,
      fun hzero => absurd hzero hcode⟩

/-- Two files with one text. -/
def twoFiles : Surroundings where
  workspace := .ofFiles
    [("a.js".toList, .text "f()\n".toList), ("b.js".toList, .text "f()\n".toList)]
  input := []
  parser := Editor.oneNode
  colored := false
  packsVariable := none

/-- Words that ask for an edit of one of them which takes a bracket away, by force or not. -/
def takeBracket (force : Bool) : List Text :=
  ["--json".toList, "lines".toList] ++ (if force then ["--force".toList] else []) ++
    ["a.js".toList, "update".toList, "1".toList, "f(".toList]

theorem readLevels_takeBracket (force : Bool) :
    readLevels .program .none false (takeBracket force) =
      .ok [(.program, ⟨[(.json, [])], []⟩),
        (.lines, ⟨if force then [(.force, [])] else [], ["a.js".toList]⟩),
        (.updateLine, ⟨[], ["1".toList, "f(".toList]⟩)] := by
  cases force <;>
    simp +decide [takeBracket, readLevels, readLong, CommandName.command?, CommandName.commands,
      CommandName.optionByWord?, CommandName.options, CommandName.globalOptions,
      CommandName.writeOptions, Given.none, Given.addOption, Given.addOperand, bind, Except.bind,
      pure, Except.pure]

theorem read_takeBracket (force : Bool) :
    Invocation.read none (takeBracket force) =
      .ok ⟨none, none, true,
        .edit "a.js".toList (.updateLine 1 "f(".toList) ⟨false, false, force⟩⟩ := by
  rw [Invocation.read, readLevels_takeBracket]
  cases force <;> rfl

/-- By force the file is written and the other one stays; without it, neither is written, and the
run fails. -/
theorem runProgram_edit_takeBracket :
    (twoFiles.filesAfter (takeBracket true)).read "a.js".toList =
        .ok (["a.js".toList], "f(\n".toList) ∧
      (twoFiles.filesAfter (takeBracket true)).content? ["b.js".toList] =
        some (.text "f()\n".toList) ∧
      (runProgram twoFiles (takeBracket true)).code = 0 ∧
      twoFiles.filesAfter (takeBracket false) = twoFiles.workspace ∧
      (runProgram twoFiles (takeBracket false)).code ≠ 0 := by
  have hrun (force : Bool) :=
    runProgram_edit (s := ⟨twoFiles, .builtIn, none, true⟩) (read_takeBracket force) rfl
      (rfl : _ = Except.ok javascriptPack) (rfl : _ = Except.ok (["a.js".toList], "f()\n".toList))
  obtain ⟨hwrites, -, hother, hforced, -⟩ := hrun true
  obtain ⟨-, hstays, -, hrefused, -⟩ := hrun false
  obtain ⟨forced, hpasses, htext⟩ : ∃ edited, Session.Passes ⟨twoFiles, .builtIn, none, true⟩
      javascriptPack "f()\n".toList (.updateLine 1 "f(".toList) ⟨false, false, true⟩ edited ∧
        edited.text = "f(\n".toList := ⟨_, ⟨rfl, Or.inr rfl⟩, rfl⟩
  have hnone : ∀ edited, ¬Session.Passes ⟨twoFiles, .builtIn, none, true⟩ javascriptPack
      "f()\n".toList (.updateLine 1 "f(".toList) ⟨false, false, false⟩ edited := by
    rintro edited ⟨hedit, hvalid | hforce⟩
    · obtain rfl := Except.ok.inj hedit
      exact absurd (congrArg Except.isOk hvalid) (by decide +kernel)
    · cases hforce
  have hwritten := hwrites forced hpasses (by rw [htext]; decide) rfl
  rw [htext] at hwritten
  refine ⟨hwritten, ?_, hforced.2 ⟨forced, hpasses⟩,
    hstays fun edited hedited => absurd hedited (hnone edited), ?_⟩
  · rw [hother _ (by decide)]
    rfl
  · rw [ne_eq, hrefused]
    rintro ⟨edited, hedited⟩
    exact hnone edited hedited

end SyntaxEdit
