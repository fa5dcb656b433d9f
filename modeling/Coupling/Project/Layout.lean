import Coupling.Project.Configuration
import Coupling.Project.Gradle

/-!
# Where a project keeps its classes and sources

The modules of a project are named in its description and in its build settings. Each module, and the project itself,
may hold a directory of compiled classes in one of two places. The sources tell which packages to analyze: those right
below the package of the main class, which is known by its annotation.
-/

namespace Coupling.Project

/-! ### Modules -/

/-- The description of a project that lists its modules. -/
def descriptionFile : Path := "pom.xml"

/-- The build settings that include projects. The first of these files that can be read is the only one that counts. -/
def buildFiles : List Path := ["settings.gradle.kts", "settings.gradle"]

/-- The names of the modules that the description of a project lists. -/
def modulesOfDescription (readers : Readers) (t : FileTree) (project : Path) : Attempt Failure (List (Option Text)) := do
  let file := project / descriptionFile
  let unread (reason : Text) : Attempt Failure (List (Option Text)) := do
    Logged.debug ("Could not read modules of " ++ file.toText ++ ": " ++ reason)
    pure []
  if ← Attempt.of (hasFile t file) then
    match t.read file with
    | .error f => unread (f.account file)
    | .ok bytes =>
      match readers.description bytes with
      | .ok names => pure names
      | .error (.refused reason) => unread reason
      | .error (.broken .missing) =>
        Logged.debug ("jgo.maven unavailable; not reading modules of " ++ file.toText)
        pure []
      | .error (.broken cause) => throw (.broken file cause)
  else pure []

/-- The names of the modules that the first of some build settings includes. -/
def modulesOfBuild (t : FileTree) : List Path → Attempt Failure (List Text)
  | [] => pure []
  | file :: rest => do
    if ← Attempt.of (hasFile t file) then
      match t.read file with
      | .error f =>
        Logged.debug ("Could not read " ++ file.toText ++ ": " ++ f.account file)
        modulesOfBuild t rest
      | .ok bytes =>
        let s ← Attempt.of (textOf file bytes)
        pure (Gradle.directories (Utf8.plainBreaks s))
    else modulesOfBuild t rest

/-- The directories of modules with some names. A name that comes again is left out, and every module needs one. -/
def namedDirectories (project : Path) (names : List (Option Text)) : Except Failure (List Path) :=
  names.eraseDups.mapM fun
    | some name => .ok (project / Path.ofText name)
    | none => .error (.namelessModule project)

/-- The directories of the modules of a project. -/
def moduleDirectories (readers : Readers) (t : FileTree) (project : Path) : Attempt Failure (List Path) := do
  let described ← modulesOfDescription readers t project
  let included ← modulesOfBuild t (buildFiles.map (project / ·))
  Attempt.of (namedDirectories project (described ++ included.map some))

/-! ### Compiled classes -/

/-- Where a module may hold its compiled classes. If both are there the first one counts. -/
def classesPlaces : List Path := ["target/classes", "build/classes/java/main"]

/-- The first of some paths that leads to a directory, if one does. -/
def firstDirectory (t : FileTree) : List Path → Except Failure (Option Path)
  | [] => .ok none
  | p :: rest => do if ← hasDirectory t p then pure (some p) else firstDirectory t rest

/-- The directory of compiled classes of a module, if there is one. -/
def classesOfModule (t : FileTree) (module : Path) : Except Failure (Option Path) :=
  firstDirectory t (classesPlaces.map (module / ·))

/-- A list of paths in a log line. -/
def quotedPaths (paths : List Path) : String :=
  Quoted.bracketed (paths.map fun p => "PosixPath(" ++ Quoted.text p.toText ++ ")")

/-- The directories of compiled classes of a project and its modules. -/
def classesDirectories (readers : Readers) (t : FileTree) (project : Path) : Attempt Failure (List Path) := do
  let modules ← moduleDirectories readers t project
  let places ← Attempt.of ((project :: modules).mapM (classesOfModule t))
  let found := places.filterMap id
  Logged.debug ("Classes dirs under " ++ project.toText ++ s!": {quotedPaths found}")
  pure found

/-! ### Sources -/

/-- Looks at every directory below a path, and at everything else there that is wanted by its names. -/
def lookBelow (t : FileTree) (isWanted : List Text → Bool) (p : Path) : Except Failure Unit :=
  (t.lookAt (t.pathsBelow isWanted p)).mapError fun (q, f) => .refused q f

/-- Where sources are expected. -/
def sourcesPlace : Path := "src/main/java"

/-- The sources of a project, if they are where they are expected. -/
def sourceRoot (t : FileTree) (project : Path) : Except Failure (Option Path) := do
  if ← hasDirectory t (project / sourcesPlace) then pure (some (project / sourcesPlace)) else pure none

/-- The annotation of the main class. -/
def mainMarker : Chars := "SpringBootApplication".toList

/-- The package of a source file, if one of its outermost types carries an annotation. -/
def packageOfAnnotated (readers : Readers) (marker : Chars) (file : Path) (source : Chars) :
    Attempt Failure (Option Chars) :=
  match readers.source source with
  | .ok declared => pure (declared.packageOf? marker)
  | .error (.refused reason) => do
    Logged.debug ("javalang failed (" ++ reason ++ "), falling back to regex")
    pure (Java.packageByText? source marker)
  | .error (.broken cause) => throw (.broken file cause)

/-- The package of a file, if it is the source of a class that carries an annotation. A file that cannot be read is not. -/
def packageInFile (readers : Readers) (t : FileTree) (marker : Chars) (file : Path) : Attempt Failure (Option Text) := do
  match t.read file with
  | .error f =>
    Logged.error ("Error reading file: " ++ file.toText ++ ": " ++ f.account file)
    pure none
  | .ok bytes =>
    let source := Utf8.plainBreaks (Utf8.decodeLossy bytes)
    if Java.holds marker source then
      match ← packageOfAnnotated readers marker file source with
      | some package =>
        let package : Text := package.map CodePoint.ofChar
        Logged.debug (s!"Main package {Quoted.text package} found in " ++ file.toText)
        pure (some package)
      | none => pure none
    else pure none

/-- The package of the first of some source files with a class that carries an annotation. -/
def annotatedPackage (readers : Readers) (t : FileTree) (marker : Chars) : List Path → Attempt Failure (Option Text)
  | [] => pure none
  | file :: rest => do
    match ← packageInFile readers t marker file with
    | some package => pure (some package)
    | none => annotatedPackage readers t marker rest

/-- The package of the class that carries an annotation, in the first source file in order that has one. -/
def mainPackage (readers : Readers) (t : FileTree) (marker : Chars) (sources : Path) : Attempt Failure (Option Text) := do
  Attempt.of (lookBelow t (fun _ => false) sources)
  annotatedPackage readers t marker ((t.withEnding ".java" sources).map Prod.fst)

/-- The packages of the directories below a place, as the names that lead to each with dots between them. -/
def directoryPackages (t : FileTree) (sources : Path) : List Text :=
  (t.below sources).filterMap fun
    | (names, .directory _) => some (Text.join "." names)
    | (_, .file _) => none

/-- Whether a package lies right below another. Everything with a single segment lies right below the package without a
name. -/
def isRightBelow (main package : Text) : Bool :=
  let start : Text := if main = [] then [] else main ++ "."
  let depth := if main = [] then 1 else (Text.split ('.' : CodePoint) main).length + 1
  start.isPrefixOf package && (Text.split ('.' : CodePoint) package).length == depth

/-- The packages right below another, in order. -/
def subpackages (t : FileTree) (sources : Path) (main : Text) : SortedSet Text :=
  SortedSet.ofList ((directoryPackages t sources).filter (isRightBelow main))

/-- The packages right below another, with a log line. -/
def findSubpackages (t : FileTree) (sources : Path) (main : Text) : Logged (List Text) := do
  let found := (subpackages t sources main).toList
  Logged.debug s!"Found {found.length} top-level packages: {Quoted.list found}"
  pure found

end Coupling.Project
