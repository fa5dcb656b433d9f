import Coupling.Files.Path
import Coupling.References
import Coupling.Text.Quoted
import Coupling.Toml.Value

/-!
# Settings of an analysis

Settings come from a table of a configuration file. Each of the four known keys is checked, in a fixed order, and the
first bad value is a fault; keys that are not known change nothing and are only warned of. A key without a value counts
as missing, and a missing key leaves the default.
-/

namespace Coupling

open Toml (Value Entries)

/-- The settings of an analysis. -/
structure Settings where
  /-- The prefixes of packages that are never counted as dependencies. -/
  builtinPrefixes : List Text := platformPrefixes
  /-- The packages to analyze. -/
  packages : List Text := []
  /-- How many class files are decoded at once; below two they are decoded one after the other. -/
  workers : Int := 4
  /-- Whether dependencies that leave the analyzed packages are dropped. -/
  restrictToTargets : Bool := true
  /-- The file that the settings come from. -/
  source : Option Path := none
  deriving DecidableEq

/-- Values that replace settings, where they are given. -/
structure Overrides where
  /-- The prefixes of packages that are never counted as dependencies. -/
  builtinPrefixes : Option (List Text) := none
  /-- The packages to analyze. -/
  packages : Option (List Text) := none
  /-- How many class files are decoded at once. -/
  workers : Option Int := none
  /-- Whether dependencies that leave the analyzed packages are dropped. -/
  restrictToTargets : Option Bool := none
  /-- The file that the settings come from. -/
  source : Option Path := none
  deriving DecidableEq

namespace Settings

/-- Replaces the settings for which another value is given. -/
def override (s : Settings) (o : Overrides) : Settings :=
  { builtinPrefixes := o.builtinPrefixes.getD s.builtinPrefixes
    packages := o.packages.getD s.packages
    workers := o.workers.getD s.workers
    restrictToTargets := o.restrictToTargets.getD s.restrictToTargets
    source := o.source.or s.source }

/-- The keys that are known. -/
inductive Field where
  | builtinPrefixes
  | packages
  | workers
  | restrictToTargets
  deriving DecidableEq

/-- The name of a key. -/
def Field.name : Field → String
  | .builtinPrefixes => "builtin_prefixes"
  | .packages => "packages"
  | .workers => "workers"
  | .restrictToTargets => "restrict_to_targets"

/-- What a key asks of its value. -/
def Field.demand : Field → String
  | .builtinPrefixes => "must be a list of strings"
  | .packages => "must be a list of strings"
  | .workers => "must be a non-negative integer"
  | .restrictToTargets => "must be true or false"

/-- All known keys. -/
def Field.all : List Field := [.builtinPrefixes, .packages, .workers, .restrictToTargets]

/-- What is wrong with the settings of a file. -/
inductive Fault where
  /-- They are not in a table. -/
  | notTable (source : Path)
  /-- A key does not have a value of the kind it asks for. -/
  | badValue (source : Path) (field : Field)
  /-- The tools of a project file are not in a table. -/
  | toolsNotTable (source : Path)
  /-- The file cannot be read, or does not follow the format of configuration files. -/
  | unreadable (source : Path) (reason : Text)
  deriving DecidableEq

/-- The words for a fault. -/
def Fault.message : Fault → Text
  | .notTable source => source.toText ++ ": [mainseq] must be a table"
  | .badValue source field => source.toText ++ s!": '{field.name}' {field.demand}"
  | .toolsNotTable source => source.toText ++ ": [tool] must be a table"
  | .unreadable source reason => "cannot read " ++ source.toText ++ ": " ++ reason

/-- A list made only of texts. -/
def strings? : Value → Option (List Text)
  | .list items => items.mapM fun
    | .string s => some (Text.ofString s)
    | _ => none
  | _ => none

/-- An integer that is not negative. -/
def count? : Value → Option Int
  | .int n => if 0 ≤ n then some n else none
  | _ => none

/-- A truth value. -/
def truth? : Value → Option Bool
  | .bool b => some b
  | _ => none

/-- The value under a key: nothing if it is missing, and a fault if it is not of the kind asked for. -/
def field {α : Type} (source : Path) (entries : Entries) (f : Field) (read? : Value → Option α) :
    Except Fault (Option α) :=
  match entries.value? f.name with
  | none => .ok none
  | some v =>
    match read? v with
    | some a => .ok (some a)
    | none => .error (.badValue source f)

/-- The settings in a table of a file. -/
def ofEntries (source : Path) (entries : Entries) : Except Fault Settings := do
  let builtinPrefixes ← field source entries .builtinPrefixes strings?
  let packages ← field source entries .packages strings?
  let workers ← field source entries .workers count?
  let restrictToTargets ← field source entries .restrictToTargets truth?
  pure (override { source := some source } { builtinPrefixes, packages, workers, restrictToTargets })

/-- The settings in a value of a file. -/
def ofValue (source : Path) : Value → Except Fault Settings
  | .table entries => ofEntries source entries
  | _ => .error (.notTable source)

/-- The keys of a value that are not known, in order. -/
def unknownKeys : Value → SortedSet Text
  | .table entries =>
    let unknown := (entries.map Prod.fst).filter fun k => !(Field.all.map Field.name).contains k
    SortedSet.ofList (unknown.map Text.ofString)
  | _ => ∅

/-- The warning that unknown keys are ignored, if there are any. -/
def warning? (source : Path) (v : Value) : Option Text :=
  match (unknownKeys v).toList with
  | [] => none
  | keys => some (source.toText ++ ": ignoring unknown keys " ++ Quoted.list keys)

end Settings

end Coupling
