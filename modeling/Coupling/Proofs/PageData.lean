import Coupling.Proofs.FileWriting
import Coupling.Proofs.Guarding
import Coupling.Proofs.JsonWriting
import Coupling.Proofs.Templates

/-!
# The data of the page

The report for other programs and the page carry the same data. Both are JSON texts of one value, the page's on one line
with every `</` guarded, so reading either gives the datum of the result back. The data of the page are made of the
characters from space to `~`, and no `</` is among them. The page itself is the template with the title in two places and
the data in one: nothing else in the template begins a placeholder, and what is put in is not looked at. The title is not
escaped, so if the name of the project holds half of a surrogate pair, the page does too, and cannot be written.
-/

namespace Coupling

open Datum

/-! ### Characters from space to `~` -/

/-- A text of characters from space to `~`. -/
def Text.Printable (t : Text) : Prop := ∀ c ∈ t, 0x20 ≤ c.val ∧ c.val ≤ 0x7E

instance (t : Text) : Decidable t.Printable := inferInstanceAs (Decidable (∀ c ∈ t, _))

/-! ### Halves of surrogate pairs -/

/-- A text without halves of surrogate pairs. -/
def Text.Whole (t : Text) : Prop := ∀ c ∈ t, ¬c.IsHigh ∧ ¬c.IsLow

instance (t : Text) : Decidable t.Whole := inferInstanceAs (Decidable (∀ c ∈ t, _))

theorem Text.whole_append {t u : Text} : (t ++ u).Whole ↔ t.Whole ∧ u.Whole := List.forall_mem_append

theorem CodePoint.isSome_toChar? {c : CodePoint} : c.toChar?.isSome = true ↔ ¬c.IsHigh ∧ ¬c.IsLow := by
  have hlt := c.isLt
  have hvalid : c.toChar?.isSome = true ↔ c.val.isValidChar := by
    unfold toChar?
    by_cases h : c.val.isValidChar
    · rw [dif_pos h]
      exact iff_of_true rfl h
    · rw [dif_neg h]
      exact iff_of_false Bool.false_ne_true h
  rw [hvalid]
  unfold Nat.isValidChar IsHigh IsLow
  omega

theorem Text.whole_ofString (s : String) : (Text.ofString s).Whole := by
  intro c hc
  obtain ⟨d, -, rfl⟩ := List.mem_map.1 hc
  have hvalid := d.valid
  simp only [UInt32.isValidChar, Nat.isValidChar] at hvalid
  unfold CodePoint.IsHigh CodePoint.IsLow CodePoint.ofChar
  simp only [Char.toNat]
  omega

theorem Text.Printable.whole {t : Text} (h : t.Printable) : t.Whole := by
  intro c hc
  have := h c hc
  unfold CodePoint.IsHigh CodePoint.IsLow
  omega

/-- Exactly the texts without halves of surrogate pairs have bytes. -/
theorem Utf8.encode?_eq (t : Text) : encode? t = if t.Whole then some (encode t) else none := by
  have hiff : (t.all fun c => c.toChar?.isSome) = true ↔ t.Whole := by
    simp only [List.all_eq_true, CodePoint.isSome_toChar?]
    rfl
  unfold encode?
  simp only [hiff]

namespace Json

theorem printable_append {t u : Text} (ht : t.Printable) (hu : u.Printable) : (t ++ u).Printable := by
  intro c hc
  rcases List.mem_append.1 hc with hc | hc
  · exact ht c hc
  · exact hu c hc

theorem printable_join {sep : Text} (hsep : sep.Printable) {ts : List Text} (hts : ∀ t ∈ ts, t.Printable) :
    (Text.join sep ts).Printable := by
  induction ts with
  | nil =>
    intro c hc
    cases hc
  | cons t ts ih =>
    obtain ⟨ht, hts⟩ := List.forall_mem_cons.1 hts
    cases ts with
    | nil =>
      rw [Text.join, List.intercalate_singleton]
      exact ht
    | cons u ts =>
      rw [Text.join, List.intercalate_cons_cons, List.append_assoc]
      exact printable_append ht (printable_append hsep (ih hts))

theorem printable_of_isNumber {t : Text} {v : Datum} (h : IsNumber t v) : t.Printable := by
  intro c hc
  have hin := List.all_eq_true.1 h.inNumber c hc
  simp only [inNumber, isDigit, Bool.or_eq_true, Bool.and_eq_true, decide_eq_true_eq] at hin
  rcases hin with ((((hdigit | rfl) | rfl) | rfl) | rfl) | rfl
  · omega
  all_goals decide

theorem printable_numbered (n : Nat) : (numbered n).Printable := by
  have hchar : ∀ d < 16, 0x20 ≤ d.digitChar.toNat ∧ d.digitChar.toNat ≤ 0x7E := by decide
  have hdigits : ∀ c ∈ Nat.toDigits 16 n, 0x20 ≤ c.toNat ∧ c.toNat ≤ 0x7E := by
    induction n using Nat.strongRecOn with
    | ind n ih =>
      by_cases hlt : n < 16
      · rw [Nat.toDigits_of_lt_base hlt, List.forall_mem_singleton]
        exact hchar n hlt
      · rw [Nat.toDigits_of_base_le (by decide) (by omega), List.forall_mem_append, List.forall_mem_singleton]
        exact ⟨ih (n / 16) (by omega), hchar (n % 16) (by omega)⟩
  apply printable_append
  · decide
  · unfold Hex.digits
    intro c hc
    rw [ofString_ofList, List.mem_map] at hc
    obtain ⟨d, hd, rfl⟩ := hc
    rcases List.mem_append.1 hd with hd | hd
    · rw [List.eq_of_mem_replicate hd]
      decide
    · exact hdigits d hd

theorem printable_escaped (c : CodePoint) : (escaped c).Printable := by
  rcases escaped_cases c with ⟨e, hc, -, -, he⟩ | ⟨hc, -, -, hplain⟩ | ⟨hc, -⟩ | ⟨hc, -⟩
  · rw [hc]
    exact List.forall_mem_cons.2 ⟨by decide, List.forall_mem_singleton.2 he⟩
  · rw [hc]
    exact List.forall_mem_singleton.2 hplain
  · rw [hc]
    exact printable_numbered _
  · rw [hc]
    exact printable_append (printable_numbered _) (printable_numbered _)

theorem printable_quoted (t : Text) : (quoted t).Printable := by
  have hbody : Text.Printable (t.flatMap escaped) := by
    intro d hd
    obtain ⟨c, -, hc⟩ := List.mem_flatMap.1 hd
    exact printable_escaped c d hc
  exact printable_append (printable_append (by decide) hbody) (by decide)

/-- A value on one line is written with characters from space to `~` only. -/
theorem printable_line (v : Json) : v.line.Printable := by
  induction v using Json.ind with
  | text t => exact printable_quoted t
  | count n => exact printable_of_isNumber (isNumber_ofNat n)
  | decimal x => exact printable_of_isNumber (Decimal.isNumber_text x)
  | list items ih =>
    rw [line, lines_eq_map]
    refine printable_append (printable_append (by decide) (printable_join (by decide) ?_)) (by decide)
    rw [List.forall_mem_map]
    exact ih
  | record fields ih =>
    rw [line, fieldLines_eq_map]
    refine printable_append (printable_append (by decide) (printable_join (by decide) ?_)) (by decide)
    rw [List.forall_mem_map]
    exact fun f hf => printable_append (printable_append (printable_quoted _) (by decide)) (ih f hf)

end Json

namespace Page

open Template (fill isLiteral isLiteral_append fill_append fill_placeholder not_infix_of_isLiteral)

theorem printable_guardClosers {t : Text} (h : t.Printable) : (guardClosers t).Printable := by
  fun_induction guardClosers t with
  | case1 => exact h
  | case2 => exact h
  | case3 c d t _ ih => exact Json.printable_append (by decide) (ih fun e he => h e (by simp [he]))
  | case4 c d t _ ih =>
    obtain ⟨hc, ht⟩ := List.forall_mem_cons.1 h
    exact List.forall_mem_cons.2 ⟨hc, ih ht⟩

/-! ### The template -/

/-- A line with its end. -/
def ended (l : String) : Text := Text.ofString l ++ [('\n' : CodePoint)]

/-- Lines of which the last one is empty. -/
theorem ofString_lines (ls : List String) : Text.ofString ("\n".intercalate (ls ++ [""])) = ls.flatMap ended := by
  induction ls with
  | nil => rfl
  | cons l ls ih =>
    obtain ⟨next, more, hmore⟩ := List.exists_cons_of_ne_nil (List.append_ne_nil_of_right_ne_nil ls (List.cons_ne_nil "" []))
    rw [List.flatMap_cons, ← ih, List.cons_append, hmore]
    simp [Text.ofString, ended, String.toList_intercalate]

/-- Texts without placeholders, told by their characters. -/
theorem isLiteral_of_chars {lines : List String} {chars : List (List Char)}
    (h : List.Forall₂ (fun l cs => l = String.ofList cs) lines chars)
    (hall : chars.all (fun cs => isLiteral (cs.map CodePoint.ofChar)) = true) :
    ∀ l ∈ lines, isLiteral (Text.ofString l) = true := by
  induction h with
  | nil =>
    intro l hl
    cases hl
  | cons hl _ ih =>
    rw [List.all_cons, Bool.and_eq_true] at hall
    rw [List.forall_mem_cons, hl, ofString_ofList]
    exact ⟨hall.1, ih hall.2⟩

theorem isLiteral_lines {lines : List String} (h : ∀ l ∈ lines, isLiteral (Text.ofString l) = true) :
    isLiteral (lines.flatMap ended) = true := by
  induction lines with
  | nil => rfl
  | cons l lines ih =>
    obtain ⟨hl, hlines⟩ := List.forall_mem_cons.1 h
    rw [List.flatMap_cons, ended]
    exact isLiteral_append (isLiteral_append hl rfl) (ih hlines)

/-- The lines of the template without a placeholder, and the parts around the placeholders in the others. -/
def literals : List (List String) :=
  [templateLines.take 4, ["<title>mainseq: ", "</title>"], (templateLines.drop 5).take 13,
    ["<h1>Distance from the main sequence: ", "</h1>"], (templateLines.drop 19).take 10, ["const DATA = ", ";"],
    (templateLines.drop 30).dropLast]

theorem isLiteral_literals : ∀ l ∈ literals.flatten, isLiteral (Text.ofString l) = true := by
  -- the characters of each line are found by unification, and checked all at once
  apply isLiteral_of_chars
  · unfold literals templateLines
    repeat
      apply List.Forall₂.cons
      · rfl
    exact .nil
  · decide +kernel

/-- The template is made of pieces without placeholders, and of the placeholders between them. -/
theorem exists_pieces : ∃ a b c d : Text,
    template = a ++ (Text.ofString "$TITLE" ++ (b ++ (Text.ofString "$TITLE" ++ (c ++ (Text.ofString "$DATA_JSON" ++ d))))) ∧
    (∀ s ∈ [a, b, c, d], isLiteral s = true) ∧ ∀ s ∈ [b, c, d], ∃ e t, s = e :: t ∧ Template.continuesName e = false := by
  have hlines : templateLines =
      (templateLines.take 4 ++ "<title>mainseq: $TITLE</title>" :: ((templateLines.drop 5).take 13 ++
        "<h1>Distance from the main sequence: $TITLE</h1>" :: ((templateLines.drop 19).take 10 ++
          "const DATA = $DATA_JSON;" :: (templateLines.drop 30).dropLast))) ++ [""] := rfl
  have htitle : Text.ofString "<title>mainseq: $TITLE</title>" =
      Text.ofString "<title>mainseq: " ++ (Text.ofString "$TITLE" ++ Text.ofString "</title>") := by
    rw [← ofString_append, ← ofString_append]
    rfl
  have hheading : Text.ofString "<h1>Distance from the main sequence: $TITLE</h1>" =
      Text.ofString "<h1>Distance from the main sequence: " ++ (Text.ofString "$TITLE" ++ Text.ofString "</h1>") := by
    rw [← ofString_append, ← ofString_append]
    rfl
  have hdata : Text.ofString "const DATA = $DATA_JSON;" =
      Text.ofString "const DATA = " ++ (Text.ofString "$DATA_JSON" ++ Text.ofString ";") := by
    rw [← ofString_append, ← ofString_append]
    rfl
  have hend : isLiteral [('\n' : CodePoint)] = true := rfl
  have hall := isLiteral_literals
  simp only [literals, List.flatten_cons, List.flatten_nil, List.forall_mem_append, List.forall_mem_cons] at hall
  obtain ⟨hfront, ⟨htitle₁, htitle₂, -⟩, hstyle, ⟨hheading₁, hheading₂, -⟩, htable, ⟨hdata₁, hdata₂, -⟩, hscript, -⟩ := hall
  refine ⟨(templateLines.take 4).flatMap ended ++ Text.ofString "<title>mainseq: ",
    Text.ofString "</title>" ++ ([('\n' : CodePoint)] ++ (((templateLines.drop 5).take 13).flatMap ended ++
      Text.ofString "<h1>Distance from the main sequence: ")),
    Text.ofString "</h1>" ++ ([('\n' : CodePoint)] ++ (((templateLines.drop 19).take 10).flatMap ended ++
      Text.ofString "const DATA = ")),
    Text.ofString ";" ++ ([('\n' : CodePoint)] ++ (templateLines.drop 30).dropLast.flatMap ended), ?_, ?_, ?_⟩
  · calc template = Text.ofString ("\n".intercalate _) := congrArg (fun ls => Text.ofString ("\n".intercalate ls)) hlines
      _ = _ := by
        rw [ofString_lines]
        simp only [List.flatMap_append, List.flatMap_cons, ended, htitle, hheading, hdata, List.append_assoc]
  · simp only [List.forall_mem_cons]
    refine ⟨?_, ?_, ?_, ?_, ?_⟩
    · exact isLiteral_append (isLiteral_lines hfront) htitle₁
    · exact isLiteral_append htitle₂ (isLiteral_append hend (isLiteral_append (isLiteral_lines hstyle) hheading₁))
    · exact isLiteral_append hheading₂ (isLiteral_append hend (isLiteral_append (isLiteral_lines htable) hdata₁))
    · exact isLiteral_append hdata₂ (isLiteral_append hend (isLiteral_lines hscript))
    · intro s hs
      cases hs
  · simp only [List.forall_mem_cons]
    have hhead {s t : Text} (h : s.head?.any (fun e => !Template.continuesName e) = true) :
        ∃ e u, s ++ t = e :: u ∧ Template.continuesName e = false := by
      cases s with
      | nil => cases h
      | cons e s => exact ⟨e, s ++ t, rfl, by simpa using h⟩
    refine ⟨hhead (by decide), hhead (by decide), hhead (by decide), ?_⟩
    intro s hs
    cases hs

/-- Every placeholder is replaced, in one pass, and nothing else is. -/
theorem fill_pieces {a b c d : Text} (hliteral : ∀ s ∈ [a, b, c, d], isLiteral s = true)
    (hends : ∀ s ∈ [b, c, d], ∃ e t, s = e :: t ∧ Template.continuesName e = false) (data title : Text) :
    fill [("DATA_JSON", data), ("TITLE", title)]
      (a ++ (Text.ofString "$TITLE" ++ (b ++ (Text.ofString "$TITLE" ++ (c ++ (Text.ofString "$DATA_JSON" ++ d)))))) =
      a ++ (title ++ (b ++ (title ++ (c ++ (data ++ d))))) := by
  generalize hvalues : [(Text.ofString "DATA_JSON", data), (Text.ofString "TITLE", title)] = values
  have hlookup : values.lookup (Text.ofString "TITLE") = some title ∧
      values.lookup (Text.ofString "DATA_JSON") = some data := by
    subst hvalues
    exact ⟨rfl, rfl⟩
  have htitle {s t : Text} (hs : ∃ e u, s = e :: u ∧ Template.continuesName e = false) :
      fill values (Text.ofString "$TITLE" ++ (s ++ t)) = title ++ fill values (s ++ t) := by
    obtain ⟨e, u, rfl, he⟩ := hs
    exact fill_placeholder (by decide) (by decide) he hlookup.1
  have hdata {s t : Text} (hs : ∃ e u, s = e :: u ∧ Template.continuesName e = false) :
      fill values (Text.ofString "$DATA_JSON" ++ (s ++ t)) = data ++ fill values (s ++ t) := by
    obtain ⟨e, u, rfl, he⟩ := hs
    exact fill_placeholder (by decide) (by decide) he hlookup.2
  simp only [List.forall_mem_cons] at hliteral hends
  obtain ⟨ha, hb, hc, hd, -⟩ := hliteral
  obtain ⟨hb', hc', hd', -⟩ := hends
  have hlast : fill values (d ++ []) = d := by
    rw [fill_append hd, show fill values [] = [] from rfl, List.append_nil]
  have hdata' := hdata (t := []) hd'
  rw [hlast, List.append_nil] at hdata'
  rw [fill_append ha, htitle hb', fill_append hb, htitle hc', fill_append hc, hdata']

end Page

/-! ### The texts of a result -/

/-- The texts in a result that are not fixed: the directory, the packages, the cycles and the files that were left out. -/
def AnalysisResult.texts (r : AnalysisResult) : List Text :=
  r.root.toText :: ((r.metrics.flatMap fun m => m.package :: (m.outgoing.toList ++ m.incoming.toList)) ++
    (r.cycles.flatten ++ r.scan.skipped.flatMap fun s => [s.path.toText, s.reason]))

theorem Json.leaves_texts (ts : List Text) : (Json.texts ts).leaves = ts := by
  rw [Json.texts, Json.leaves, Json.leavesOfAll_eq_flatMap]
  induction ts with
  | nil => rfl
  | cons t ts ih =>
    rw [List.map_cons, List.flatMap_cons, ih]
    rfl

theorem PackageMetrics.leaves_data (m : PackageMetrics) :
    m.data.leaves = m.package :: (m.outgoing.toList ++ (m.incoming.toList ++ [Text.ofString m.zone.name])) := by
  simp [PackageMetrics.data, Json.leaves, Json.leavesOfFields, Json.leaves_texts]

theorem Skipped.leaves_data (s : Skipped) : s.data.leaves = [s.path.toText, s.reason] := by
  simp [Skipped.data, Json.leaves, Json.leavesOfFields]

theorem AnalysisResult.unpaired_leaves {r : AnalysisResult} (h : ∀ t ∈ r.texts, t.Unpaired) :
    ∀ t ∈ r.data.leaves, t.Unpaired := by
  simp only [AnalysisResult.texts, List.forall_mem_cons, List.forall_mem_append, List.forall_mem_flatMap,
    List.forall_mem_flatten] at h
  obtain ⟨hroot, hmetrics, hcycles, hskipped⟩ := h
  simp only [AnalysisResult.data, ScanResult.data, Json.leaves, Json.leavesOfFields, Json.leavesOfAll_eq_flatMap,
    List.forall_mem_append, List.forall_mem_flatMap, List.forall_mem_map, Json.leaves_texts, PackageMetrics.leaves_data,
    Skipped.leaves_data, List.forall_mem_cons, List.append_nil, List.nil_append]
  refine ⟨⟨hroot, by simp⟩, ?_, hcycles, hskipped⟩
  intro m hm
  obtain ⟨hpackage, houtgoing, hincoming⟩ := hmetrics m hm
  exact ⟨hpackage, houtgoing, hincoming, Text.unpaired_ofString m.zone.name, by simp⟩

theorem Datum.read_of_spells {t : Text} {v : Datum} (h : Spells t v) : read t = some v :=
  read_eq_some_iff.2 ⟨[], t, [], Json.blanks_nil, h, Json.blanks_nil, (List.append_nil t).symm⟩

/-- The page is the template with its own placeholders replaced, in one pass. -/
theorem AnalysisResult.exists_page (r : AnalysisResult) : ∃ a b c d : Text,
    Page.template = a ++ "$TITLE" ++ b ++ "$TITLE" ++ c ++ "$DATA_JSON" ++ d ∧
    (∀ s ∈ [a, b, c, d], Template.isLiteral s = true) ∧
    r.page = a ++ r.root.name ++ b ++ r.root.name ++ c ++ Page.data r ++ d := by
  obtain ⟨a, b, c, d, htemplate, hliteral, hends⟩ := Page.exists_pieces
  refine ⟨a, b, c, d, ?_, hliteral, ?_⟩
  · rw [htemplate]
    simp only [List.append_assoc]
  · rw [AnalysisResult.page, htemplate, Page.fill_pieces hliteral hends]
    simp only [List.append_assoc]

theorem Page.printable_data (r : AnalysisResult) : (data r).Printable := printable_guardClosers (Json.printable_line r.data)

/-- Nothing in the page but the title can hold half of a surrogate pair. -/
theorem AnalysisResult.whole_page (r : AnalysisResult) : r.page.Whole ↔ r.root.name.Whole := by
  obtain ⟨a, b, c, d, htemplate, -, hpage⟩ := r.exists_page
  have hwhole : Page.template.Whole := Text.whole_ofString _
  rw [htemplate] at hwhole
  have hdata := (Page.printable_data r).whole
  rw [hpage]
  simp only [Text.whole_append, and_assoc] at hwhole ⊢
  obtain ⟨ha, -, hb, -, hc, -, hd⟩ := hwhole
  simp [ha, hb, hc, hd, hdata]

/-- What becomes of a page where pages can be written. -/
theorem Command.written {t : FileTree} {file : Path} (h : (writePage t file []).2 = none) (content : Text) :
    (content.Whole → (writePage t file content).2 = none ∧ (writePage t file content).1.read file = .ok (Utf8.encode content)) ∧
    (¬content.Whole → (writePage t file content).2 = some (.unwritable file) ∧
      (writePage t file content).1.read file = .ok []) := by
  obtain ⟨hwrite, hread⟩ := writePage_of_empty h content
  rw [Utf8.encode?_eq] at hwrite hread
  constructor
  · intro hwhole
    rw [if_pos hwhole] at hwrite hread
    exact ⟨hwrite, hread⟩
  · intro hwhole
    rw [if_neg hwhole] at hwrite hread
    exact ⟨hwrite, hread⟩

/-- Both reports carry the data of the result, whatever its texts are, as long as no high half of a pair stands right
before a low one: reading the report for other programs gives them back, and so does reading what stands in the page. What
stands in the page holds no `</` and only characters from space to `~`. The page is the template with its own placeholders
replaced, so that a dollar sign or the name of a placeholder in the title or in the data stays as it is. Where pages can be
written, the page goes into its file exactly if the last name of the directory holds no half of a surrogate pair, and
otherwise the file is left empty and the failure is not reported. -/
theorem reports_read_back (r : AnalysisResult) (h : ∀ t ∈ r.texts, t.Unpaired) :
    Datum.read r.json = some r.data.datum ∧
    Datum.read (Page.data r) = some r.data.datum ∧
    ¬ Text.ofString "</" <:+: Page.data r ∧
    (∀ c ∈ Page.data r, 0x20 ≤ c.val ∧ c.val ≤ 0x7E) ∧
    (∃ a b c d : Text,
      Page.template = a ++ "$TITLE" ++ b ++ "$TITLE" ++ c ++ "$DATA_JSON" ++ d ∧
      (∀ s ∈ [a, b, c, d], ¬ Text.ofString "$TITLE" <:+: s ∧ ¬ Text.ofString "$DATA_JSON" <:+: s) ∧
      r.page = a ++ r.root.name ++ b ++ r.root.name ++ c ++ Page.data r ++ d) ∧
    ∀ (t : FileTree) (file : Path), (Command.writePage t file []).2 = none →
      (r.root.name.Whole → (Command.writePage t file r.page).2 = none ∧
        (Command.writePage t file r.page).1.read file = .ok (Utf8.encode r.page)) ∧
      (¬r.root.name.Whole → (Command.writePage t file r.page).2 = some (.unwritable file) ∧
        (Command.writePage t file r.page).1.read file = .ok []) := by
  have hleaves := AnalysisResult.unpaired_leaves h
  have hline := Json.spells_line r.data hleaves
  obtain ⟨a, b, c, d, htemplate, hliteral, hpage⟩ := r.exists_page
  refine ⟨Datum.read_of_spells (Json.spells_indented r.data hleaves 0),
    Datum.read_of_spells (Page.spells_guardClosers hline), Page.not_infix_guardClosers _, Page.printable_data r,
    ⟨a, b, c, d, htemplate, fun s hs => ?_, hpage⟩, fun t file hempty => ?_⟩
  · have hs' := hliteral s hs
    exact ⟨Template.not_infix_of_isLiteral (by decide) hs', Template.not_infix_of_isLiteral (by decide) hs'⟩
  · rw [← r.whole_page]
    exact Command.written hempty r.page

/-- Half of a surrogate pair. -/
def half : CodePoint := ⟨0xDCFF, by decide⟩

/-- A text with everything in it that has to be escaped or guarded, and with a half of a pair on its own at both ends. -/
def hardText : Text := ⟨0xD83D, by decide⟩ :: (Text.ofString "</script>\"\\\n$DATA_JSON😀" ++ [⟨0xDE00, by decide⟩])

/-- A result with such texts in all places, and with a directory. -/
def hardResult (root : Path) : AnalysisResult where
  root := root
  metrics := [{ package := hardText, instability := 1 / 3 }]
  cycles := [[hardText, "a"]]
  scan := { scanned := 1, skipped := [{ path := Path.ofText hardText, reason := hardText }] }

/-- A directory with half of a pair in a name, but not in the last one. -/
def hardRoot : Path where
  slashes := 1
  parts := [[half], "$TITLE"]

/-- A directory with half of a pair in its last name. -/
def halfRoot : Path where
  slashes := 1
  parts := ["p", [half]]

/-- Pages can be written into an empty directory. -/
theorem writePage_empty : (Command.writePage {} "out.html" []).2 = none := by decide +kernel

theorem reports_read_back_hardResult :
    (∀ t ∈ (hardResult hardRoot).texts, t.Unpaired) ∧
    Datum.read (hardResult hardRoot).json = some (hardResult hardRoot).data.datum ∧
    Datum.read (Page.data (hardResult hardRoot)) = some (hardResult hardRoot).data.datum ∧
    (Command.writePage {} "out.html" (hardResult hardRoot).page).2 = none ∧
    (Command.writePage {} "out.html" (hardResult hardRoot).page).1.read "out.html" =
      .ok (Utf8.encode (hardResult hardRoot).page) := by
  have h : ∀ t ∈ (hardResult hardRoot).texts, t.Unpaired := by decide
  obtain ⟨hjson, hpage, -, -, -, hwrite⟩ := reports_read_back (hardResult hardRoot) h
  exact ⟨h, hjson, hpage, (hwrite {} "out.html" writePage_empty).1 (by decide)⟩

/-- A page for such a directory is not written, and leaves an empty file. -/
theorem halfRoot_unwritten : (∀ t ∈ (hardResult halfRoot).texts, t.Unpaired) ∧
    (Command.writePage {} "out.html" (hardResult halfRoot).page).2 = some (.unwritable "out.html") ∧
    (Command.writePage {} "out.html" (hardResult halfRoot).page).1.read "out.html" = .ok [] := by
  have h : ∀ t ∈ (hardResult halfRoot).texts, t.Unpaired := by decide
  have hpage : ¬(hardResult halfRoot).page.Whole := by
    rw [AnalysisResult.whole_page]
    decide
  exact ⟨h, (Command.written writePage_empty _).2 hpage⟩

end Coupling
