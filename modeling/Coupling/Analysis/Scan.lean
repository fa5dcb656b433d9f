import Coupling.Analysis.Result
import Coupling.ClassFile.Decode
import Coupling.Files.Tree
import Coupling.Log

/-!
# Scanning class files

Every class file of a list is read, decoded, and recorded in the graph if its class belongs to a target package. A file
that cannot be read or decoded leaves the graph as it was and is listed with the reason. Several workers may decode files at
once; a scan that is not called off comes to the same then, so it is told here as if files came one after the other.

A scan may be called off. Whether it is called off is asked again and again: before each file when files are scanned one
after the other, and otherwise before each file is handed out, before each outcome is taken in, and once at the end. So
a number of askings that are still answered with no decides how many outcomes are taken in.
-/

namespace Coupling

/-- Why a class file is left out. -/
inductive ArtifactFault where
  /-- It cannot be read. -/
  | unreadable (file : Path) (fault : FileFault)
  /-- It cannot be decoded. -/
  | undecodable (fault : ClassFile.Fault)
  deriving DecidableEq

/-- The words for the reason. -/
def ArtifactFault.message : ArtifactFault → Text
  | .unreadable file fault => "cannot read " ++ file.toText ++ s!": {fault.message}"
  | .undecodable fault => fault.message

/-- How the bytes of a file are got. -/
abbrev ReadFile := Path → Except FileFault (List UInt8)

namespace Scan

/-- What a scan looks for. -/
structure Options where
  /-- The target packages. -/
  targets : List Text
  /-- The prefixes of packages that are never counted. -/
  builtinPrefixes : List Text := platformPrefixes
  /-- How many files are decoded at once. -/
  workers : Int := 0
  /-- How many times the scan goes on when it asks whether it is called off; without a number it always goes on. -/
  askings : Option Nat := none

/-- The class in a file. -/
def readClass (read : ReadFile) (file : Path) : Logged (Except ArtifactFault ClassSummary) :=
  match read file with
  | .error f => pure (.error (.unreadable file f))
  | .ok bytes => do
    let decoded := ClassFile.decode bytes
    decoded.notes.forM fun note => Logged.debug note.message
    pure (decoded.outcome.mapError .undecodable)

/-- Records a class, with a log line, and tells whether it belongs to a target package. -/
def recordClass (o : Options) (g : Graph) (c : ClassSummary) : Logged (Bool × Graph) := do
  if o.targets.contains c.package then
    let references := (c.references o.builtinPrefixes).toList
    Logged.debug (c.name ++ s!" -> {Quoted.list (g.destinations c.package references o.targets).toList}")
    pure (g.record c references o.targets)
  else pure (false, g)

/-- Scans a file: whether its class belongs to a target package, and the graph with it. -/
def scanFile (read : ReadFile) (o : Options) (g : Graph) (file : Path) :
    Logged (Except ArtifactFault (Bool × Graph)) := do
  match ← readClass read file with
  | .error f => pure (.error f)
  | .ok c => do pure (.ok (← recordClass o g c))

/-- Takes a file in. -/
def step (read : ReadFile) (o : Options) (state : Graph × ScanResult) (file : Path) : Logged (Graph × ScanResult) := do
  let (g, result) := state
  let result := { result with scanned := result.scanned + 1 }
  match ← scanFile read o g file with
  | .ok (true, g) => pure (g, { result with decoded := result.decoded + 1 })
  | .ok (false, g) => pure (g, result)
  | .error f =>
    Logged.warning ("Skipping " ++ file.toText ++ ": " ++ f.message)
    pure (g, { result with skipped := result.skipped ++ [⟨file, f.message⟩] })

/-- How many of some files are taken in, and whether the scan counts as called off. -/
def reach (o : Options) (files : Nat) : Nat × Bool :=
  match o.askings with
  | none => (files, false)
  | some n => if o.workers ≤ 1 then (min files n, n < files) else (min files (n - files), n ≤ 2 * files)

/-- Files that were left out, by path. -/
def sortSkipped (skipped : List Skipped) : List Skipped := skipped.mergeSort fun a b => a.path.le b.path

/-- Scans files into a graph. Without targets nothing is looked at. -/
def run (read : ReadFile) (o : Options) (g : Graph) (files : List Path) : Logged (Graph × ScanResult) := do
  if o.targets = [] then pure (g, {})
  else
    let (count, cancelled) := reach o files.length
    let (g, result) ← (files.take count).foldlM (step read o) (g, {})
    let result := { result with skipped := sortSkipped result.skipped, cancelled }
    Logged.info s!"Scanned {result.scanned} class files: {result.decoded} in target packages, {result.skipped.length} skipped"
    pure (g, result)

/-- The class files below a directory, in order. -/
def classFiles (t : FileTree) (root : Path) : List Path :=
  (t.withEnding ".class" root).filterMap fun
    | (file, .file _) => some file
    | (_, .directory _) => none

end Scan

end Coupling
