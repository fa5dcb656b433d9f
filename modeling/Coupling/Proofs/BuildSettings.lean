import Coupling.Proofs.Balance
import Coupling.Proofs.ProjectFiles
import Coupling.Proofs.Segments

/-!
# Projects that build settings include

Build settings are lines. A line whose first word is `include` lists projects between quotes, each as segments with colons
between them and perhaps one in front; every other line is about something else, whatever stands between quotes there, and
so is a line that begins with a longer word. Reading settings that are written in this way gives back the projects: each is a
module in the directory of its segments, in the order in which projects come first, and no project comes twice.
-/

namespace Coupling

open Attempt (Ends ends_of)

/-! ### Lines -/

/-- A text without a line break. -/
def IsLine (line : List Char) : Prop := '\n' ∉ line ∧ '\r' ∉ line

instance (line : List Char) : Decidable (IsLine line) := inferInstanceAs (Decidable (_ ∧ _))

/-- The lines of a text. A line ends with a line feed, a carriage return, or both, and the last line with the text. -/
inductive Lines : List Char → List (List Char) → Prop where
  | last {line : List Char} : IsLine line → Lines line [line]
  | lineFeed {line rest : List Char} {lines : List (List Char)} :
    IsLine line → Lines rest lines → Lines (line ++ '\n' :: rest) (line :: lines)
  | both {line rest : List Char} {lines : List (List Char)} :
    IsLine line → Lines rest lines → Lines (line ++ '\r' :: '\n' :: rest) (line :: lines)
  | carriageReturn {line rest : List Char} {lines : List (List Char)} :
    IsLine line → rest.head? ≠ some '\n' → Lines rest lines → Lines (line ++ '\r' :: rest) (line :: lines)

namespace Utf8

theorem plainBreaks_append {line : List Char} (h : '\r' ∉ line) (rest : List Char) :
    plainBreaks (line ++ rest) = line ++ plainBreaks rest := by
  induction line with
  | nil => rfl
  | cons c line ih =>
    rw [List.mem_cons, not_or] at h
    rw [List.cons_append, List.cons_append, ← ih h.2, plainBreaks]
    · rintro rest rfl
      exact absurd rfl h.1
    · rintro rfl
      exact absurd rfl h.1

theorem plainBreaks_carriageReturn {rest : List Char} (h : rest.head? ≠ some '\n') :
    plainBreaks ('\r' :: rest) = '\n' :: plainBreaks rest := by
  rw [plainBreaks]
  rintro more rfl
  exact h rfl

theorem split_line {line : List Char} (h : IsLine line) (rest : List Char) :
    Text.split '\n' (line ++ '\n' :: rest) = line :: Text.split '\n' rest := by
  rw [Text.split_append_sep, Text.split_of_not_mem _ h.1]
  rfl

/-- With plain breaks, the lines are the parts between line feeds. -/
theorem split_plainBreaks {text : List Char} {lines : List (List Char)} (h : Lines text lines) :
    Text.split '\n' (plainBreaks text) = lines := by
  induction h with
  | last hline =>
    have hplain := plainBreaks_append hline.2 []
    rw [List.append_nil, plainBreaks, List.append_nil] at hplain
    rw [hplain, Text.split_of_not_mem _ hline.1]
  | @lineFeed line rest lines hline hrest ih =>
    have hbreak : plainBreaks ('\n' :: rest) = '\n' :: plainBreaks rest := by
      rw [← List.singleton_append, plainBreaks_append (by decide), List.singleton_append]
    rw [plainBreaks_append hline.2, hbreak, split_line hline, ih]
  | both hline hrest ih => rw [plainBreaks_append hline.2, plainBreaks, split_line hline, ih]
  | carriageReturn hline hhead hrest ih =>
    rw [plainBreaks_append hline.2, plainBreaks_carriageReturn hhead, split_line hline, ih]

end Utf8

/-! ### Projects -/

namespace Gradle

/-- What the segments of a project are made of. -/
def isPlain (c : Char) : Bool := !isQuote c && c ≠ ':' && c ≠ '/'

/-- A project, by its segments. -/
structure ProjectPath where
  /-- The segments. -/
  segments : List (List Char)
  /-- There are some. -/
  segments_ne_nil : segments ≠ []
  /-- None is empty, and none holds a quote, a colon or a slash. -/
  proper : ∀ s ∈ segments, s ≠ [] ∧ s.all isPlain = true
  deriving DecidableEq

namespace ProjectPath

/-- The segments with colons between them. -/
def name (p : ProjectPath) : List Char := [':'].intercalate p.segments

/-- The name, perhaps with a colon in front. -/
def spelled (p : ProjectPath) (rooted : Bool) : List Char := if rooted then ':' :: p.name else p.name

/-- The directory of a project: the segments with slashes between them. -/
def directory (p : ProjectPath) : Text := Text.join "/" (p.segments.map fun s => s.map CodePoint.ofChar)

theorem ext {p p' : ProjectPath} (h : p.segments = p'.segments) : p = p' := by
  cases p
  cases p'
  cases h
  rfl

theorem isPlain_of_mem {p : ProjectPath} {s : List Char} {c : Char} (hs : s ∈ p.segments) (hc : c ∈ s) :
    isQuote c = false ∧ c ≠ ':' ∧ c ≠ '/' := by
  have hplain := List.all_eq_true.1 (p.proper s hs).2 c hc
  simpa [isPlain, and_assoc] using hplain

theorem exists_name (p : ProjectPath) : ∃ c rest, p.name = c :: rest ∧ c ≠ ':' := by
  obtain ⟨first, more, hsegments⟩ := List.exists_cons_of_ne_nil p.segments_ne_nil
  have hfirst : first ∈ p.segments := hsegments ▸ List.mem_cons_self
  obtain ⟨c, rest, rfl⟩ := List.exists_cons_of_ne_nil (p.proper first hfirst).1
  have hc : c ≠ ':' := (isPlain_of_mem hfirst List.mem_cons_self).2.1
  rw [name, hsegments]
  cases more with
  | nil => exact ⟨c, rest, List.intercalate_singleton, hc⟩
  | cons second more => exact ⟨c, _, List.intercalate_cons_cons, hc⟩

theorem dropColon_spelled (p : ProjectPath) (rooted : Bool) : dropColon (p.spelled rooted) = p.name := by
  obtain ⟨c, rest, hname, hc⟩ := p.exists_name
  cases rooted with
  | true =>
    rw [spelled, if_pos rfl, hname]
    rfl
  | false =>
    rw [spelled, if_neg Bool.false_ne_true, hname, dropColon]
    rintro c' rest' heq
    exact hc (List.cons.inj heq).1

theorem spelled_ne_nil (p : ProjectPath) (rooted : Bool) : p.spelled rooted ≠ [] := by
  obtain ⟨c, rest, hname, -⟩ := p.exists_name
  cases rooted with
  | true => exact List.cons_ne_nil _ _
  | false =>
    rw [spelled, if_neg Bool.false_ne_true, hname]
    exact List.cons_ne_nil _ _

theorem not_isQuote_spelled {p : ProjectPath} {rooted : Bool} {c : Char} (h : c ∈ p.spelled rooted) : isQuote c = false := by
  have hname (h : c ∈ p.name) : isQuote c = false := by
    rcases Text.mem_intercalate h with hcolon | ⟨s, hs, hc⟩
    · rw [List.mem_singleton.1 hcolon]
      rfl
    · exact (isPlain_of_mem hs hc).1
  cases rooted with
  | true =>
    rcases List.mem_cons.1 h with rfl | h
    · rfl
    · exact hname h
  | false => exact hname h

/-- The colons of a name become the slashes of a directory. -/
theorem directory_name (p : ProjectPath) : Gradle.directory p.name = p.directory := by
  have hsegments : p.segments.map (List.map fun c => if c = ':' then ('/' : CodePoint) else c) =
      p.segments.map fun s => s.map CodePoint.ofChar := by
    refine List.map_congr_left fun s hs => List.map_congr_left fun c hc => ?_
    rw [if_neg (isPlain_of_mem hs hc).2.1]
  rw [Gradle.directory, name, Text.map_intercalate, hsegments]
  rfl

/-- Projects in one directory are the same. -/
theorem directory_inj {p p' : ProjectPath} (h : p.directory = p'.directory) : p = p' := by
  have hsplit (p : ProjectPath) : Text.split ('/' : CodePoint) p.directory =
      p.segments.map fun s => s.map CodePoint.ofChar := by
    refine Text.split_intercalate _ (fun part hpart hmem => ?_) (by simpa using p.segments_ne_nil)
    obtain ⟨s, hs, rfl⟩ := List.mem_map.1 hpart
    obtain ⟨c, hc, heq⟩ := List.mem_map.1 hmem
    exact (isPlain_of_mem hs hc).2.2 (CodePoint.ofChar_inj.1 heq)
  have hsegments : (p.segments.map fun s => s.map CodePoint.ofChar) = p'.segments.map fun s => s.map CodePoint.ofChar := by
    rw [← hsplit, ← hsplit, h]
  have hchars : Function.Injective CodePoint.ofChar := fun a b => CodePoint.ofChar_inj.1
  exact ext (List.map_injective_iff.2 (List.map_injective_iff.2 hchars) hsegments)

end ProjectPath

/-! ### Projects between quotes -/

theorem quoted_append {gap : List Char} (h : ∀ c ∈ gap, isQuote c = false) (rest : List Char) :
    quoted (gap ++ rest) = quoted rest := by
  induction gap with
  | nil => rfl
  | cons c gap ih =>
    rw [List.cons_append, quoted, if_neg (by simp [h c List.mem_cons_self])]
    exact ih fun c hc => h c (List.mem_cons_of_mem _ hc)

/-- Between two quotes without a third there is one project. -/
theorem quoted_cons {quote quote' : Char} {project : List Char} (hquote : isQuote quote = true)
    (hquote' : isQuote quote' = true) (hproject : ∀ c ∈ project, isQuote c = false) (hne : project ≠ [])
    (rest : List Char) : quoted (quote :: (project ++ quote' :: rest)) = dropColon project :: quoted rest := by
  have hall : ∀ c ∈ project, (fun c => !isQuote c) c = true := fun c hc => by simp [hproject c hc]
  have hdrop : (project ++ quote' :: rest).dropWhile (fun c => !isQuote c) = quote' :: rest := by
    rw [List.dropWhile_append_of_pos hall, List.dropWhile_cons, if_neg (by simp [hquote'])]
  have htake : (project ++ quote' :: rest).takeWhile (fun c => !isQuote c) = project := by
    rw [List.takeWhile_append_of_pos hall, List.takeWhile_cons, if_neg (by simp [hquote']), List.append_nil]
  rw [quoted, if_pos hquote]
  -- The closing quote is there, and what stands before it is not empty: the two cases in which nothing is taken are out.
  split
  · next hnone =>
    rw [hdrop] at hnone
    cases hnone
  · next first after hsome =>
    rw [hdrop] at hsome
    obtain ⟨rfl, rfl⟩ := List.cons.inj hsome
    rw [htake]
    split
    · next hempty => exact absurd rfl hne
    · rfl

/-- What stands around projects: neither quotes nor words. -/
def isGap (gap : List Char) : Bool := gap.all fun c => !isQuote c && !CodePoint.isWord c

theorem isGap_iff {gap : List Char} : isGap gap = true ↔ ∀ c ∈ gap, isQuote c = false ∧ CodePoint.isWord c = false := by
  simp [isGap]

/-- A list of projects between quotes, with blanks, commas and brackets around them. -/
inductive Arguments : List Char → List ProjectPath → Prop where
  | none {gap : List Char} : isGap gap = true → Arguments gap []
  | more {gap rest : List Char} {quote : Char} {rooted : Bool} {p : ProjectPath} {projects : List ProjectPath} :
    isGap gap = true → isQuote quote = true → Arguments rest projects →
    Arguments (gap ++ quote :: (p.spelled rooted ++ quote :: rest)) (p :: projects)

theorem quoted_of_arguments {s : List Char} {projects : List ProjectPath} (h : Arguments s projects) :
    quoted s = projects.map ProjectPath.name := by
  induction h with
  | @none gap hgap =>
    have hquoted := quoted_append (fun c hc => (isGap_iff.1 hgap c hc).1) []
    rwa [List.append_nil, quoted] at hquoted
  | @more gap rest quote rooted p projects hgap hquote hrest ih =>
    rw [quoted_append fun c hc => (isGap_iff.1 hgap c hc).1]
    rw [quoted_cons hquote hquote (fun c => ProjectPath.not_isQuote_spelled) (p.spelled_ne_nil rooted)]
    rw [p.dropColon_spelled, ih, List.map_cons]

/-- After the word `include` no longer word goes on. -/
theorem Arguments.head {s : List Char} {projects : List ProjectPath} (h : Arguments s projects) :
    (s.head?.any fun c : Char => CodePoint.isWord c) = false := by
  have hquotes {quote : Char} (hquote : isQuote quote = true) : CodePoint.isWord quote = false := by
    rw [isQuote, Bool.or_eq_true, decide_eq_true_iff, decide_eq_true_iff] at hquote
    rcases hquote with rfl | rfl <;> rfl
  have hgaps {gap : List Char} (hgap : isGap gap = true) {rest : List Char}
      (hrest : (rest.head?.any fun c : Char => CodePoint.isWord c) = false) :
      ((gap ++ rest).head?.any fun c : Char => CodePoint.isWord c) = false := by
    cases gap with
    | nil => exact hrest
    | cons c gap => simpa using (isGap_iff.1 hgap c List.mem_cons_self).2
  cases h with
  | @none gap hgap =>
    rw [← List.append_nil s]
    exact hgaps hgap rfl
  | more hgap hquote _ => exact hgaps hgap (by simpa using hquotes hquote)

/-! ### Statements -/

/-- The word that a line begins with, perhaps after blanks. -/
def firstWord (line : List Char) : List Char :=
  (line.dropWhile fun c : Char => CodePoint.isBlank c).takeWhile fun c : Char => CodePoint.isWord c

/-- The projects that a line includes. -/
inductive Includes : List Char → List ProjectPath → Prop where
  /-- A blank line, and a line that begins otherwise, includes none. -/
  | other {line : List Char} : firstWord line ≠ includeWord → Includes line []
  /-- The word `include`, perhaps after blanks, and the projects. -/
  | projects {indent arguments : List Char} {projects : List ProjectPath} :
    (indent.all fun c : Char => CodePoint.isBlank c) = true → Arguments arguments projects →
    Includes (indent ++ includeWord ++ arguments) projects

theorem includeWord_spec : (includeWord.all fun c : Char => CodePoint.isWord c && !CodePoint.isBlank c) = true := by
  decide

theorem arguments?_other {line : List Char} (h : firstWord line ≠ includeWord) : arguments? line = none := by
  unfold arguments?
  dsimp only
  rw [if_neg]
  rintro ⟨hbegins, hhead⟩
  -- A line that begins with these letters, and with no longer word, has them as its first word.
  refine h ?_
  obtain ⟨rest, hrest⟩ := List.isPrefixOf_iff_prefix.1 hbegins
  rw [← hrest, List.drop_left] at hhead
  have hword : ∀ c ∈ includeWord, CodePoint.isWord c = true := fun c hc =>
    (Bool.and_eq_true_iff.1 (List.all_eq_true.1 includeWord_spec c hc)).1
  rw [firstWord, ← hrest, List.takeWhile_append_of_pos hword]
  cases rest with
  | nil => exact List.append_nil _
  | cons c rest =>
    rw [List.takeWhile_cons, if_neg (by simpa using hhead), List.append_nil]

theorem arguments?_include {indent arguments : List Char}
    (hindent : (indent.all fun c : Char => CodePoint.isBlank c) = true)
    (hhead : (arguments.head?.any fun c : Char => CodePoint.isWord c) = false) :
    arguments? (indent ++ includeWord ++ arguments) = some arguments := by
  have hstart : (indent ++ includeWord ++ arguments).dropWhile (fun c : Char => CodePoint.isBlank c) =
      includeWord ++ arguments := by
    rw [List.append_assoc, List.dropWhile_append_of_pos (List.all_eq_true.1 hindent)]
    rfl
  unfold arguments?
  dsimp only
  rw [hstart, List.drop_left, if_pos]
  exact ⟨List.isPrefixOf_iff_prefix.2 (List.prefix_append _ _), by rw [hhead]; rfl⟩

/-- What is read from lines is what they include. -/
theorem flatMap_arguments {lines : List (List Char)} {projects : List (List ProjectPath)}
    (h : List.Forall₂ Includes lines projects) :
    ((lines.filterMap arguments?).flatMap fun arguments => (quoted arguments).map directory) =
      projects.flatten.map ProjectPath.directory := by
  induction h with
  | nil => rfl
  | cons hline _ ih =>
    rw [List.flatten_cons, List.map_append, ← ih]
    cases hline with
    | other hword => rw [List.filterMap_cons_none (arguments?_other hword), List.map_nil, List.nil_append]
    | projects hindent harguments =>
      rw [List.filterMap_cons_some (arguments?_include hindent harguments.head), List.flatMap_cons,
        quoted_of_arguments harguments, List.map_map]
      congr 1
      exact List.map_congr_left fun p _ => p.directory_name

/-- Reading settings gives back the projects that they include. -/
theorem directories_plainBreaks {text : List Char} {lines : List (List Char)} {projects : List (List ProjectPath)}
    (hlines : Lines text lines) (hprojects : List.Forall₂ Includes lines projects) :
    directories (Utf8.plainBreaks text) = projects.flatten.map ProjectPath.directory := by
  rw [directories, Utf8.split_plainBreaks hlines, flatMap_arguments hprojects]

end Gradle

/-! ### Modules -/

theorem FileTree.isFile_of_read {t : FileTree} {p : Path} {bytes : List UInt8} (h : t.read p = .ok bytes) :
    t.isFile p = .ok true := by
  unfold read at h
  unfold isFile test entry
  cases hplace : t.locate p with
  | error f =>
    rw [hplace] at h
    cases h
  | ok place =>
    simp only [hplace, bind, Except.bind] at h ⊢
    cases hentry : t.entries.find? place with
    | none =>
      rw [hentry] at h
      cases h
    | some e =>
      rw [hentry] at h
      cases e with
      | directory entries => cases h
      | file bytes => rfl

namespace Project

variable {readers : Readers} {t : FileTree} {project file : Path} {bytes : List UInt8}

/-- The build settings that count. Those of the newer language do if they are there, whatever else is, and otherwise the
older ones. -/
def IsBuildFile (t : FileTree) (project file : Path) : Prop :=
  file = project / ("settings.gradle.kts" : Path) ∨
    t.isFile (project / ("settings.gradle.kts" : Path)) = .ok false ∧ file = project / ("settings.gradle" : Path)

/-- What build settings that can be read come to is told by their bytes. -/
theorem ends_modulesOfBuild (hfile : IsBuildFile t project file) (hread : t.read file = .ok bytes) :
    Ends (modulesOfBuild t (buildFiles.map (project / ·)))
      ((textOf file bytes).map fun s => Gradle.directories (Utf8.plainBreaks s)) := by
  have hfiles : buildFiles.map (project / ·) =
      [project / ("settings.gradle.kts" : Path), project / ("settings.gradle" : Path)] := rfl
  have hfound (rest : List Path) : Ends (modulesOfBuild t (file :: rest))
      ((textOf file bytes).map fun s => Gradle.directories (Utf8.plainBreaks s)) := by
    unfold modulesOfBuild hasFile
    rw [FileTree.isFile_of_read hread, hread]
    refine (ends_of _).bind ?_
    dsimp only
    rw [if_pos rfl]
    cases textOf file bytes with
    | error f => exact (ends_of _).bind_error
    | ok s => exact (ends_of _).bind (.pure _)
  rw [hfiles]
  rcases hfile with rfl | ⟨hnone, rfl⟩
  · exact hfound _
  · unfold modulesOfBuild hasFile
    rw [hnone]
    exact (ends_of _).bind (hfound [])

/-- Without a description, the modules are those of the build settings. -/
theorem ends_moduleDirectories (hpom : t.isFile (project / descriptionFile) = .ok false) {r : Except Failure (List Text)}
    (hbuild : Ends (modulesOfBuild t (buildFiles.map (project / ·))) r) : Ends (moduleDirectories readers t project)
      (r >>= fun names => namedDirectories project (names.map some)) := by
  have hdescription : Ends (modulesOfDescription readers t project) (.ok []) := by
    unfold modulesOfDescription hasFile
    dsimp only
    rw [hpom]
    exact (ends_of _).bind (.pure _)
  unfold moduleDirectories
  refine hdescription.bind ?_
  cases r with
  | error f => exact hbuild.bind_error
  | ok names => exact hbuild.bind (ends_of _)

/-- A project of two segments. -/
def coreApi : Gradle.ProjectPath := ⟨["core".toList, "api".toList], by decide, by decide⟩

/-- A project of one segment. -/
def web : Gradle.ProjectPath := ⟨["web".toList], by decide, by decide⟩

/-- Lines of build settings, three of which include nothing. -/
def shopLines : List (List Char) :=
  ["rootProject.name = 'shop'".toList, "include(\":core:api\", 'web')".toList, [], "  include 'web'".toList,
    "includeBuild 'tools'".toList]

/-- The projects that these lines include. -/
def shopProjects : List (List Gradle.ProjectPath) := [[], [coreApi, web], [], [web], []]

/-- Build settings of these lines, with line breaks of all kinds. -/
def shopSettings : List Char :=
  "rootProject.name = 'shop'".toList ++ '\r' :: '\n' :: ("include(\":core:api\", 'web')".toList ++ '\n' ::
    ([] ++ '\r' :: ("  include 'web'".toList ++ '\n' :: "includeBuild 'tools'".toList)))

/-- A project with these settings, and with older ones beside them. -/
def shop : FileTree :=
  { entries := [("p", .directory [("settings.gradle", .file (Utf8.encode "include 'other'")),
      ("settings.gradle.kts", .file (Utf8.encode (shopSettings.map CodePoint.ofChar)))])] }

theorem lines_shopSettings : Lines shopSettings shopLines := by
  refine .both (by decide) (.lineFeed (by decide) (.carriageReturn (by decide) (by decide) (.lineFeed (by decide) (.last ?_))))
  decide

theorem includes_shopLines : List.Forall₂ Gradle.Includes shopLines shopProjects := by
  have hsecond : Gradle.Includes ([] ++ Gradle.includeWord ++ (['('] ++ '"' :: (coreApi.spelled true ++ '"' ::
      ([',', ' '] ++ '\'' :: (web.spelled false ++ '\'' :: [')']))))) [coreApi, web] :=
    .projects rfl (.more rfl rfl (.more rfl rfl (.none rfl)))
  have hfourth : Gradle.Includes ([' ', ' '] ++ Gradle.includeWord ++ ([' '] ++ '\'' :: (web.spelled false ++ '\'' :: [])))
      [web] := .projects rfl (.more rfl rfl (.none rfl))
  have hother {line : List Char} (h : Gradle.firstWord line ≠ Gradle.includeWord) : Gradle.Includes line [] := .other h
  exact .cons (hother (by decide)) (.cons hsecond (.cons (hother (by decide)) (.cons hfourth
    (.cons (hother (by decide)) .nil))))

end Project

end Coupling
