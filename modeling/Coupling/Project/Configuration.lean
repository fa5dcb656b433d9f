import Coupling.Analysis.Failure
import Coupling.Log
import Coupling.Text.Utf8

/-!
# The settings of a project

A project keeps the settings of its analysis in a file of their own, or else among the tools of a project file. Without
either, the defaults hold.
-/

namespace Coupling.Project

open Toml (Value)

/-! ### Looking and reading -/

/-- Whether a path leads to a file. -/
def hasFile (t : FileTree) (p : Path) : Except Failure Bool := (t.isFile p).mapError (.refused p)

/-- Whether a path leads to a directory. -/
def hasDirectory (t : FileTree) (p : Path) : Except Failure Bool := (t.isDirectory p).mapError (.refused p)

/-- The characters of a file that has to be in UTF-8. -/
def textOf (file : Path) (bytes : List UInt8) : Except Failure Chars :=
  match Utf8.decode? bytes with
  | some s => .ok s
  | none => .error (.notUtf8 file)

/-! ### Settings -/

/-- The file of settings. -/
def settingsFile : Path := ".mainseq.toml"

/-- The file that describes a project and its tools. -/
def toolsFile : Path := "pyproject.toml"

/-- The name of the settings in either file. -/
def settingsName : String := "mainseq"

/-- The entries of a configuration file. -/
def readDocument (readers : Readers) (t : FileTree) (file : Path) : Except Failure Toml.Entries :=
  match t.read file with
  | .error f => .error (.settings (.unreadable file (f.account file)))
  | .ok bytes => do
    match readers.settings (← textOf file bytes) with
    | .ok entries => .ok entries
    | .error (.refused reason) => .error (.settings (.unreadable file reason))
    | .error (.broken cause) => .error (.broken file cause)

/-- The settings in a value of a file. Keys that are not known are warned of. -/
def settingsOf (file : Path) (v : Value) : Attempt Failure Settings := do
  if let some warning := Settings.warning? file v then Logged.warning warning
  Attempt.of ((Settings.ofValue file v).mapError .settings)

/-- The settings of a project. -/
def loadSettings (readers : Readers) (t : FileTree) (project : Path) : Attempt Failure Settings := do
  let own := project / settingsFile
  let shared := project / toolsFile
  if ← Attempt.of (hasFile t own) then
    let entries ← Attempt.of (readDocument readers t own)
    settingsOf own ((entries.lookup settingsName).getD (.table []))
  else if ← Attempt.of (hasFile t shared) then
    let entries ← Attempt.of (readDocument readers t shared)
    match (entries.lookup "tool").getD (.table []) with
    | .table tools =>
      match tools.lookup settingsName with
      | some v => settingsOf shared v
      | none => pure {}
    | _ => throw (.settings (.toolsNotTable shared))
  else pure {}

end Coupling.Project
