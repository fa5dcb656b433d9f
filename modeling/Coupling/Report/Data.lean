import Coupling.Analysis.Result
import Coupling.Report.Json

/-!
# The data of a report
-/

namespace Coupling

/-- A list of texts as data. -/
def Json.texts (ts : List Text) : Json := .list (ts.map .text)

/-- The metrics of a package as data. -/
def PackageMetrics.data (m : PackageMetrics) : Json :=
  .record [
    ("package", .text m.package),
    ("ce", .count m.ce),
    ("ca", .count m.ca),
    ("instability", .decimal m.instability),
    ("abstractness", .decimal m.abstractness),
    ("distance", .decimal m.distance),
    ("total_classes", .count m.total),
    ("abstract_classes", .count m.abstract),
    ("outgoing", .texts m.outgoing.toList),
    ("incoming", .texts m.incoming.toList),
    ("zone", .text m.zone.name)]

/-- A file that was left out as data. -/
def Skipped.data (s : Skipped) : Json := .record [("path", .text s.path.toText), ("reason", .text s.reason)]

/-- A scan as data. -/
def ScanResult.data (s : ScanResult) : Json :=
  .record [
    ("scanned", .count s.scanned),
    ("decoded", .count s.decoded),
    ("skipped", .list (s.skipped.map Skipped.data))]

namespace AnalysisResult

/-- The result of an analysis as data. -/
def data (r : AnalysisResult) : Json :=
  .record [
    ("root", .text r.root.toText),
    ("packages", .list (r.metrics.map PackageMetrics.data)),
    ("cycles", .list (r.cycles.map .texts)),
    ("scan", r.scan.data)]

/-- The report for other programs. -/
def json (r : AnalysisResult) : Text := r.data.indented 0

end AnalysisResult

end Coupling
