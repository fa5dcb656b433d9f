import Coupling.Java.SourceFile
import Coupling.Toml.Document
import Coupling.Xml.Document

/-!
# Readers

An analysis leaves the formats of settings, project descriptions and sources to readers. A reader gives what a file says, or
it refuses the file in the way that is expected of it, or it breaks down. The analysis takes its readers as they come, and
nothing in it depends on what they do; the command uses those at the end of this file.
-/

namespace Coupling

/-- How a reader breaks down. -/
inductive Breakdown where
  /-- The file is not well formed. -/
  | malformed
  /-- The file declares an encoding that does not exist. -/
  | unknownEncoding
  /-- The file holds a number with too many digits. -/
  | tooManyDigits
  /-- The reader is not installed. -/
  | missing
  /-- In any other way. -/
  | other
  deriving DecidableEq

/-- Why a reader does not give what a file says. -/
inductive ReaderFault where
  /-- It refuses the file, and says why. -/
  | refused (message : Text)
  /-- It breaks down. -/
  | broken (cause : Breakdown)
  deriving DecidableEq

/-- The readers of an analysis. -/
structure Readers where
  /-- Reads the entries of a configuration file. -/
  settings : Chars → Except ReaderFault Toml.Entries
  /-- Reads the names of the modules in a project description; a module may have none. -/
  description : List UInt8 → Except ReaderFault (List (Option Text))
  /-- Reads what a source file declares. -/
  source : Chars → Except ReaderFault Java.SourceFile

namespace Readers

/-- The names of the modules in a document; one without any text has no name. -/
def describedModules (root : Xml.Element) : List (Option Text) :=
  ((root.named "modules").flatMap (·.named "module")).map fun e =>
    e.text.map fun cs => Text.trim CodePoint.isBlank (cs.map CodePoint.ofChar)

/-- A fault of a configuration file. -/
def ofSettingsFault : Toml.Fault → ReaderFault
  | .format => .refused []
  | .tooManyDigits => .broken .tooManyDigits

/-- A fault of a project description. -/
def ofDescriptionFault : Xml.Fault → ReaderFault
  | .malformed => .broken .malformed
  | .unknownEncoding => .broken .unknownEncoding
  | .multiByte => .refused "multi-byte encodings are not supported"

/-- The readers that the command uses. -/
def standard : Readers where
  settings s := (Toml.parse s).mapError ofSettingsFault
  description bytes := ((Xml.parse bytes).map describedModules).mapError ofDescriptionFault
  source s := (Java.SourceFile.parse s).mapError fun f => .refused f.message

end Readers

end Coupling
