import Coupling.Analysis.Scan
import Coupling.Cycles
import Coupling.Number.Decimal
import Coupling.Project.Layout

/-!
# Running an analysis

The analysis of a project finds the packages and the compiled classes, scans the classes into a graph, and computes the
metrics of the packages and the cycles among them.
-/

namespace Coupling.Analysis

/-! ### Metrics of packages -/

/-- The log line for the metrics of a package. -/
def metricsLine (m : PackageMetrics) : Text :=
  "Metrics for package " ++ m.package ++
    s!": I={Decimal.text m.instability}, A={Decimal.text m.abstractness}, D={Decimal.text m.distance}, CE={m.ce}, CA={m.ca}"

/-- The metrics of packages in a graph, with a log line for each. -/
def logMetrics (g : Graph) (packages : List Text) : Logged (List PackageMetrics) := do
  let metrics := g.metrics packages
  metrics.forM fun m => Logged.debug (metricsLine m)
  pure metrics

/-- What the computation of metrics gives. -/
structure Measured where
  /-- The metrics; none if the scan was called off. -/
  metrics : List PackageMetrics := []
  /-- The scan. -/
  scan : ScanResult := {}
  /-- The graph that was scanned. -/
  graph : Graph

/-- The metrics of packages from the class files below some directories. Without packages the files are not looked at. -/
def measure (t : FileTree) (roots : List Path) (packages : List Text) (s : Settings) (askings : Option Nat) :
    Logged Measured := do
  let graph : Graph := { restricted := s.restrictToTargets }
  if packages = [] then pure { graph }
  else
    let files := roots.flatMap (Scan.classFiles t)
    Logged.info s!"Calculating metrics for {packages.length} packages over {files.length} class files"
    let options : Scan.Options :=
      { targets := packages, builtinPrefixes := s.builtinPrefixes, workers := s.workers, askings }
    let (graph, scan) ← Scan.run t.read options graph files
    if scan.cancelled then
      Logged.info "Scan cancelled; discarding partial results"
      pure { scan, graph }
    else
      Logged.debug "Dependency analysis completed. Calculating final metrics."
      pure { metrics := ← logMetrics graph packages, scan, graph }

/-! ### Projects -/

/-- The packages that the sources of a project show. -/
def locatePackages (readers : Readers) (t : FileTree) (project : Path) : Attempt Failure (List Text) := do
  match ← Attempt.of (Project.sourceRoot t project) with
  | none => throw (.analysis (.noSources project))
  | some sources =>
    match ← Project.mainPackage readers t Project.mainMarker sources with
    | none | some [] => throw (.analysis .noMainClass)
    | some main =>
      Logged.debug ("Main package found: " ++ main)
      Attempt.of (Project.lookBelow t (fun _ => true) sources)
      match ← Project.findSubpackages t sources main with
      | [] => throw (.analysis (.noSubpackages main))
      | packages =>
        Logged.debug s!"Top-level packages found: {Quoted.list packages}"
        pure packages

/-- The directories of compiled classes: one that is given, or those of the project, or else the project itself if there
are class files below it. -/
def locateClasses (readers : Readers) (t : FileTree) (project : Path) (given : Option Path) :
    Attempt Failure (List Path) := do
  match given with
  | some directory =>
    if ← Attempt.of (Project.hasDirectory t directory) then pure [directory]
    else throw (.analysis (.noClassesDirectory directory))
  | none =>
    match ← Project.classesDirectories readers t project with
    | [] =>
      if t.withEnding ".class" project = [] then
        Attempt.of (Project.lookBelow t (fun _ => false) project)
        throw (.analysis (.notCompiled project))
      else pure [project]
    | directories => pure directories

/-- Looks at all class files below some directories. -/
def lookForClasses (t : FileTree) (roots : List Path) : Except Failure Unit :=
  roots.forM (Project.lookBelow t (FileTree.hasEnding ".class"))

/-- What an analysis is asked for. -/
structure Request where
  /-- The directory of the project. -/
  project : Path
  /-- The packages, if they are not to be found. -/
  packages : Option (List Text) := none
  /-- The directory of compiled classes, if it is not to be found. -/
  classesDirectory : Option Path := none
  /-- The settings, if they are not to be read from the project. -/
  settings : Option Settings := none
  /-- How many times the scan goes on when it asks whether it is called off. -/
  askings : Option Nat := none

/-- The directory of the project, as an absolute path. -/
def Request.root (r : Request) (t : FileTree) : Path := Path.resolve t.working r.project

/-- The settings to use: those that are given, or else those of the project. -/
def Request.chooseSettings (r : Request) (readers : Readers) (t : FileTree) : Attempt Failure Settings :=
  match r.settings with
  | some s => pure s
  | none => Project.loadSettings readers t (r.root t)

/-- The packages to analyze, once each: those asked for, or else those of the settings, or else those found. -/
def choosePackages (readers : Readers) (t : FileTree) (project : Path) (asked : Option (List Text)) (s : Settings) :
    Attempt Failure (List Text) := do
  match asked with
  | some packages => pure packages.eraseDups
  | none =>
    if s.packages = [] then pure (← locatePackages readers t project).eraseDups else pure s.packages.eraseDups

/-- Analyzes the packages of a project. -/
def analyzePackages (readers : Readers) (t : FileTree) (r : Request) (s : Settings) (packages : List Text) :
    Attempt Failure AnalysisResult := do
  let root := r.root t
  let roots ← locateClasses readers t root r.classesDirectory
  Logged.debug s!"Classes dirs: {Project.quotedPaths roots}"
  Attempt.of (lookForClasses t roots)
  let measured ← measure t roots packages s r.askings
  if measured.scan.cancelled then pure { root, packages, scan := measured.scan }
  else
    let cycles := Adjacency.cycles measured.graph.edges
    Logged.debug s!"Cycles detected: {cycles.length}"
    Logged.info "Project scan completed successfully."
    pure { root, packages, metrics := measured.metrics, scan := measured.scan, cycles }

/-- Analyzes a project. -/
def run (readers : Readers) (t : FileTree) (r : Request) : Attempt Failure AnalysisResult := do
  if !r.project.isEncodable then throw (.unencodable r.project)
  let root := r.root t
  if !(← Attempt.of (Project.hasDirectory t root)) then throw (.analysis (.notDirectory root))
  let settings ← r.chooseSettings readers t
  let packages ← choosePackages readers t root r.packages settings
  if packages = [] then pure { root } else analyzePackages readers t r settings packages

end Coupling.Analysis
