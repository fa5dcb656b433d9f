import Coupling.Files.Path
import Coupling.Metrics

/-!
# Results of an analysis
-/

namespace Coupling

/-- A class file that was left out. -/
structure Skipped where
  /-- Where it is. -/
  path : Path
  /-- Why it was left out. -/
  reason : Text
  deriving DecidableEq

/-- What a scan of class files came to. -/
structure ScanResult where
  /-- How many files were looked at. -/
  scanned : Nat := 0
  /-- How many of them hold a class of a target package. -/
  decoded : Nat := 0
  /-- The files that could not be read or decoded, in order. -/
  skipped : List Skipped := []
  /-- Whether the scan was called off. -/
  cancelled : Bool := false
  deriving DecidableEq

/-- What the analysis of a project gives. -/
structure AnalysisResult where
  /-- The directory of the project. -/
  root : Path
  /-- The packages that were analyzed. -/
  packages : List Text := []
  /-- Their metrics. -/
  metrics : List PackageMetrics := []
  /-- The scan that they come from. -/
  scan : ScanResult := {}
  /-- The groups of packages that depend on each other. -/
  cycles : List (List Text) := []

end Coupling
