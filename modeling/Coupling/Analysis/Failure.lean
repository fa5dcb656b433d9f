import Coupling.Files.Tree
import Coupling.Project.Readers
import Coupling.Settings

/-!
# Why an analysis fails

Most failures are reported to the user in one line. The others come from files that nobody expects, and from readers that
break down: they end the program without a report.
-/

namespace Coupling

/-- What an analysis lacks. -/
inductive AnalysisFault where
  /-- The project is not a directory. -/
  | notDirectory (project : Path)
  /-- No packages are given, and the project has no sources to find them in. -/
  | noSources (project : Path)
  /-- No source file holds the main class. -/
  | noMainClass
  /-- There are no packages below that of the main class. -/
  | noSubpackages (main : Text)
  /-- The directory of compiled classes is not there. -/
  | noClassesDirectory (directory : Path)
  /-- The project is not compiled. -/
  | notCompiled (project : Path)
  deriving DecidableEq

/-- The words for what is lacking. -/
def AnalysisFault.message : AnalysisFault → Text
  | .notDirectory project => "not a directory: " ++ project.toText
  | .noSources project => "no packages given and no src/main/java under " ++ project.toText
  | .noMainClass => "No @SpringBootApplication found in the project."
  | .noSubpackages main => "No subpackages found below " ++ main ++ "."
  | .noClassesDirectory directory => "classes directory not found: " ++ directory.toText
  | .notCompiled project =>
    "no compiled classes under " ++ project.toText ++ "; run `mvn compile` or `gradle build` first"

/-- Why an analysis fails. -/
inductive Failure where
  /-- The settings are wrong. -/
  | settings (fault : Settings.Fault)
  /-- Something is lacking. -/
  | analysis (fault : AnalysisFault)
  /-- A text file is not in UTF-8. -/
  | notUtf8 (file : Path)
  /-- The reader of a file breaks down. -/
  | broken (file : Path) (cause : Breakdown)
  /-- A project description has a module without a name. -/
  | namelessModule (project : Path)
  /-- The system does not let a path be looked at, or a file be written. -/
  | refused (path : Path) (fault : FileFault)
  /-- The system cannot have a path like this one. -/
  | unencodable (path : Path)
  /-- The text for a file holds half of a surrogate pair. -/
  | unwritable (file : Path)
  deriving DecidableEq

/-- The report of a failure, if it is reported. -/
def Failure.report? : Failure → Option Text
  | .settings fault => some fault.message
  | .analysis fault => some fault.message
  | .notUtf8 _ | .broken _ _ | .namelessModule _ | .refused _ _ | .unencodable _ | .unwritable _ => none

end Coupling
