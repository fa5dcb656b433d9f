import Coupling.Analysis.Run
import Coupling.Command.Arguments
import Coupling.Report.Page
import Coupling.Report.Table

/-!
# Carrying out a command

A command analyzes a project and writes a report: to the standard output, or to a file. A page always goes to a file.
Failures that are reported, and files that the system does not let be written, end the command with the status one. Other
failures end it without a status.
-/

namespace Coupling.Command

/-- What a command leaves behind. -/
structure Outcome where
  /-- The status it ends with, or the failure that it does not report. -/
  ending : Except Failure Nat := .ok 0
  /-- What it prints. -/
  printed : Text := []
  /-- The files afterwards. -/
  files : FileTree

/-- The file of a page, unless another one is given. -/
def defaultPage : Path := "mainseq.html"

/-- The name that a command goes by in its messages. -/
def name : String := "mainseq"

/-- The last line of what is printed for wrong arguments. -/
def usageLine (f : UsageFault) : Text := s!"{name}: error: " ++ f.message

/-- A short account of the arguments. -/
def usage : Text :=
  let options := Switch.all.map fun s =>
    let value := if s.takesValue then " VALUE" else ""
    "[" ++ "|".intercalate s.spellings ++ value ++ "]"
  s!"usage: {name} " ++ Text.join " " (options.map Text.ofString) ++ " project_dir"

/-- What the options say about the settings. -/
def Invocation.overrides (i : Invocation) : Overrides :=
  { workers := if i.sequential then some 0 else i.workers
    restrictToTargets := if i.allEdges then some false else none }

/-! ### Writing reports -/

/-- The words for a file that cannot be written. -/
def writeError (p : Path) (f : FileFault) : Text := "Cannot write output: " ++ f.account p

/-- Writes a file: the files afterwards, and what goes wrong. A file is opened before its text is put into bytes, so it is
left empty if that cannot be done. -/
def writeFile (t : FileTree) (p : Path) (content : Text) : FileTree × Option Failure :=
  if !p.isEncodable then (t, some (.unencodable p))
  else
    match t.write p ((Utf8.encode? content).getD []) with
    | .error f => (t, some (.refused p f))
    | .ok t => (t, if (Utf8.encode? content).isSome then none else some (.unwritable p))

/-- Writes a page, and the directories above it that are not there. -/
def writePage (t : FileTree) (p : Path) (content : Text) : FileTree × Option Failure :=
  if !p.parent.isEncodable then (t, some (.unencodable p.parent))
  else
    match t.makeDirectory p.parent with
    | (t, some (directory, f)) => (t, some (.refused directory f))
    | (t, none) => writeFile t p content

/-- The report on a result, in the form that is asked for. A page has no line break of its own at the end. -/
def content (i : Invocation) (r : AnalysisResult) : Text :=
  match i.format with
  | .text => r.table ++ "\n"
  | .json => r.json ++ "\n"
  | .html => r.page

/-- The file that the report goes to, if it goes to one. -/
def destination? (i : Invocation) : Option Path :=
  if i.format = .html then some (i.output.getD defaultPage) else i.output

/-- Writes the report on a result. -/
def deliver (t : FileTree) (i : Invocation) (r : AnalysisResult) : Logged Outcome := do
  match destination? i with
  | none => pure { printed := content i r, files := t }
  | some file =>
    let (files, failure) := if i.format = .html then writePage t file (content i r) else writeFile t file (content i r)
    match failure with
    | none =>
      if i.format = .html then Logged.info ("Generated " ++ file.toText)
      pure { files }
    | some (.refused p f) =>
      Logged.error (writeError p f)
      pure { ending := .ok 1, files }
    | some f => pure { ending := .error f, files }

/-! ### Commands -/

/-- The analysis that a command asks for. The settings are read from the project as it was given. -/
def analyze (readers : Readers) (t : FileTree) (i : Invocation) : Attempt Failure AnalysisResult := do
  let settings ← Project.loadSettings readers t i.project
  Analysis.run readers t {
    project := i.project
    packages := i.packages
    classesDirectory := i.classesDirectory
    settings := some (settings.override i.overrides) }

/-- Carries out a command. -/
def execute (readers : Readers) (t : FileTree) (i : Invocation) : Logged Outcome := do
  match ← (analyze readers t i).run with
  | .ok r => deliver t i r
  | .error f =>
    match f.report? with
    | some report =>
      Logged.error report
      pure { ending := .ok 1, files := t }
    | none => pure { ending := .error f, files := t }

/-- The log lines that a command shows. -/
def shownLines (i : Invocation) (log : Log) : List Text :=
  (log.filter fun line => i.verbose || line.level.isLoud).map LogLine.text

end Coupling.Command
