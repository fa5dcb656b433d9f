import Coupling.Report.Data
import Coupling.Report.Template

/-!
# The report as a page

A page that draws each package at its instability and abstractness, with a table below. The page is a template with two
placeholders: the title, and the data of the report. The data stand inside a script, so no `</` may be left in them.
-/

namespace Coupling.Page

/-- The lines of the template. -/
def templateLines : List String := [
  "<!DOCTYPE html>",
  "<html lang=\"en\">",
  "<head>",
  "<meta charset=\"utf-8\">",
  "<title>mainseq: $TITLE</title>",
  "<style>",
  "  body \x7b font-family: system-ui, sans-serif; margin: 2rem; color: #222; \x7d",
  "  h1 \x7b font-size: 1.4rem; \x7d",
  "  #chart \x7b border: 1px solid #ccc; background: #fafafa; \x7d",
  "  table \x7b border-collapse: collapse; margin-top: 1.5rem; \x7d",
  "  th, td \x7b padding: 0.25rem 0.75rem; border-bottom: 1px solid #ddd; text-align: right; \x7d",
  "  th:first-child, td:first-child \x7b text-align: left; \x7d",
  "  .pain \x7b color: #b22; \x7d",
  "  .useless \x7b color: #a60; \x7d",
  "  .skipped \x7b margin-top: 1rem; color: #666; font-size: 0.9rem; \x7d",
  "</style>",
  "</head>",
  "<body>",
  "<h1>Distance from the main sequence: $TITLE</h1>",
  "<svg id=\"chart\" width=\"480\" height=\"480\" viewBox=\"-40 -20 480 480\"></svg>",
  "<table id=\"metrics\">",
  "  <thead>",
  "    <tr><th>Package</th><th>Ce</th><th>Ca</th><th>I</th><th>A</th><th>D</th><th>Classes</th><th>Zone</th></tr>",
  "  </thead>",
  "  <tbody></tbody>",
  "</table>",
  "<div id=\"cycles\" class=\"skipped\"></div>",
  "<div id=\"skipped\" class=\"skipped\"></div>",
  "<script>",
  "const DATA = $DATA_JSON;",
  "const SIZE = 400;",
  "const svg = document.getElementById(\"chart\");",
  "const NS = \"http://www.w3.org/2000/svg\";",
  "",
  "function el(name, attrs, text) \x7b",
  "  const node = document.createElementNS(NS, name);",
  "  for (const [k, v] of Object.entries(attrs)) node.setAttribute(k, v);",
  "  if (text !== undefined) node.textContent = text;",
  "  svg.appendChild(node);",
  "  return node;",
  "\x7d",
  "",
  "// Axes: x = instability, y = abstractness (origin bottom-left).",
  "el(\"rect\", \x7b x: 0, y: 0, width: SIZE, height: SIZE, fill: \"none\", stroke: \"#999\" \x7d);",
  "el(\"line\", \x7b x1: 0, y1: 0, x2: SIZE, y2: SIZE, stroke: \"#4a4\", \"stroke-dasharray\": \"6 4\" \x7d);",
  "el(\"text\", \x7b x: SIZE / 2, y: SIZE + 30, \"text-anchor\": \"middle\" \x7d, \"Instability (I)\");",
  "el(\"text\", \x7b x: -25, y: SIZE / 2, transform: `rotate(-90 -25 $\x7bSIZE / 2\x7d)`, \"text-anchor\": \"middle\" \x7d, \"Abstractness (A)\");",
  "",
  "for (const pkg of DATA.packages) \x7b",
  "  const cx = pkg.instability * SIZE;",
  "  const cy = SIZE - pkg.abstractness * SIZE;",
  "  const dot = el(\"circle\", \x7b cx, cy, r: 6, fill: pkg.distance < 0.2 ? \"#4a4\" : \"#c44\", opacity: 0.8 \x7d);",
  "  const title = document.createElementNS(NS, \"title\");",
  "  title.textContent = `$\x7bpkg.package\x7d  I=$\x7bpkg.instability\x7d A=$\x7bpkg.abstractness\x7d D=$\x7bpkg.distance\x7d`;",
  "  dot.appendChild(title);",
  "  el(\"text\", \x7b x: cx + 8, y: cy - 8, \"font-size\": 11 \x7d, pkg.package.split(\".\").pop());",
  "\x7d",
  "",
  "const tbody = document.querySelector(\"#metrics tbody\");",
  "for (const pkg of DATA.packages) \x7b",
  "  const row = document.createElement(\"tr\");",
  "  const cls = pkg.zone === \"zone of pain\" ? \"pain\" : pkg.zone === \"zone of uselessness\" ? \"useless\" : \"\";",
  "  const cells = [pkg.package, pkg.ce, pkg.ca, pkg.instability, pkg.abstractness, pkg.distance, pkg.total_classes, pkg.zone];",
  "  for (const value of cells) \x7b",
  "    const td = document.createElement(\"td\");",
  "    td.textContent = value;",
  "    row.appendChild(td);",
  "  \x7d",
  "  if (cls) row.className = cls;",
  "  tbody.appendChild(row);",
  "\x7d",
  "",
  "if (DATA.cycles.length) \x7b",
  "  document.getElementById(\"cycles\").textContent =",
  "    \"Dependency cycles: \" + DATA.cycles.map(c => c.join(\" ↔ \")).join(\"; \");",
  "\x7d",
  "if (DATA.scan.skipped.length) \x7b",
  "  document.getElementById(\"skipped\").textContent =",
  "    `$\x7bDATA.scan.skipped.length\x7d of $\x7bDATA.scan.scanned\x7d class files skipped.`;",
  "\x7d",
  "</script>",
  "</body>",
  "</html>",
  ""]

/-- The template. -/
def template : Text := "\n".intercalate templateLines

/-- Writes every `</` with a backslash between, which means the same inside a string. -/
def guardClosers : Text → Text
  | [] => []
  | [c] => [c]
  | c :: d :: t => if c = '<' ∧ d = '/' then "<\\/" ++ guardClosers t else c :: guardClosers (d :: t)

/-- The data as they stand in the page. -/
def data (r : AnalysisResult) : Text := guardClosers r.data.line

end Coupling.Page

namespace Coupling

/-- The report as a page. -/
def AnalysisResult.page (r : AnalysisResult) : Text :=
  Template.fill [("DATA_JSON", Page.data r), ("TITLE", r.root.name)] Page.template

end Coupling
