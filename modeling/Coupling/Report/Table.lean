import Coupling.Analysis.Result
import Coupling.Number.Decimal
import Coupling.Text.CharClass

/-!
# The report as a table

One row for each package, in columns of fixed width: the first is flush left, the others flush right, and the last is
as long as its text. Below the table stand the cycles, and how many files were left out if any were.
-/

namespace Coupling.Table

/-- The heads of the columns. -/
def heads : List Text := ["Package", "Ce", "Ca", "I", "A", "D", "Classes", "Zone"]

/-- The cells of a package. The package without a name is the default package. -/
def row (m : PackageMetrics) : List Text :=
  [if m.package = [] then "(default)" else m.package,
    Text.ofNat m.ce,
    Text.ofNat m.ca,
    Decimal.fixed 4 m.instability,
    Decimal.fixed 4 m.abstractness,
    Decimal.fixed 4 m.distance,
    Text.ofNat m.total,
    m.zone.name]

/-- The widths of the columns that hold some rows. -/
def widths (rows : List (List Text)) : List Nat :=
  rows.foldl (fun ws row => List.zipWith max ws (row.map List.length)) (heads.map List.length)

/-- Spaces that fill a cell up to a width. -/
def padding (width : Nat) (cell : Text) : Text := List.replicate (width - cell.length) (' ' : CodePoint)

/-- The cells after the first, each in its column. -/
def alignRight : List Nat → List Text → List Text
  | _, [] => []
  | _, [last] => [last]
  | [], cells => cells
  | w :: ws, cell :: cells => (padding w cell ++ cell) :: alignRight ws cells

/-- The cells of a row, each in its column. -/
def align : List Nat → List Text → List Text
  | w :: ws, cell :: cells => (cell ++ padding w cell) :: alignRight ws cells
  | _, cells => cells

/-- A line of the table. -/
def line (ws : List Nat) (cells : List Text) : Text := Text.trimEnd CodePoint.isBlank (Text.join "  " (align ws cells))

/-- The lines of the report. -/
def lines (r : AnalysisResult) : List Text :=
  let rows := r.metrics.map row
  let ws := widths rows
  let rule := ws.map fun w => List.replicate w ('-' : CodePoint)
  let cycles := r.cycles.map fun c => ("cycle: " : Text) ++ Text.join " <-> " c
  let skipped : List Text :=
    if r.scan.skipped = [] then [] else [s!"{r.scan.skipped.length} of {r.scan.scanned} class files skipped"]
  line ws heads :: line ws rule :: rows.map (line ws) ++ cycles ++ skipped

end Coupling.Table

namespace Coupling

/-- The report for readers. -/
def AnalysisResult.table (r : AnalysisResult) : Text := Text.join "\n" (Table.lines r)

end Coupling
