import Coupling.Project.Layout
import Coupling.Proofs.Attempts
import Coupling.Proofs.Encoding
import Mathlib.Data.List.ReduceOption

/-!
# What the files of a project give

Settings and modules are read from files that anybody may have written, by readers that may do anything. What this comes to
is told exactly here. It fails without a report for a few reasons only: a place cannot be looked at, a file that has to be text
is not in UTF-8, a reader breaks down, or a module has no name. In all other cases there is a result, or, where settings are
read, a failure that is reported.
-/

namespace Coupling

/-! ### Looking -/

namespace FileTree

variable {t : FileTree} {p : Path} {isKind : Entry → Bool}

/-- Whether a path can be looked at: if nothing is found, it is because nothing is there. -/
def Visible (t : FileTree) (p : Path) : Prop := ∀ f, t.entry p = .error f → f.meansAbsent = true

/-- Whether a path that can be looked at leads to an entry of a kind. -/
def shows (t : FileTree) (isKind : Entry → Bool) (p : Path) : Bool :=
  match t.entry p with
  | .ok e => isKind e
  | .error _ => false

theorem test_cases (t : FileTree) (isKind : Entry → Bool) (p : Path) :
    t.Visible p ∧ t.test isKind p = .ok (t.shows isKind p) ∨ ¬t.Visible p ∧ ∃ f, t.test isKind p = .error f := by
  unfold Visible test shows
  cases t.entry p with
  | ok e => exact .inl ⟨by simp, rfl⟩
  | error f =>
    cases hf : f.meansAbsent with
    | true =>
      refine .inl ⟨fun f' h => ?_, by simp [hf]⟩
      cases h
      exact hf
    | false =>
      refine .inr ⟨fun h => ?_, f, by simp [hf]⟩
      exact absurd (hf.symm.trans (h f rfl)) Bool.false_ne_true

theorem test_eq_ok {b : Bool} : t.test isKind p = .ok b ↔ t.Visible p ∧ t.shows isKind p = b := by
  obtain ⟨hvisible, htest⟩ | ⟨hvisible, f, htest⟩ := t.test_cases isKind p
  · simp [htest, hvisible]
  · simp [htest, hvisible]

theorem isFile_eq_ok {b : Bool} : t.isFile p = .ok b ↔ t.Visible p ∧ t.shows Entry.isFile p = b := test_eq_ok

theorem isDirectory_eq_ok {b : Bool} : t.isDirectory p = .ok b ↔ t.Visible p ∧ t.shows Entry.isDirectory p = b := test_eq_ok

/-- Only what shows as a file can be read. -/
theorem exists_read_error (h : t.shows Entry.isFile p = false) : ∃ f, t.read p = .error f := by
  unfold shows entry at h
  unfold read
  cases hplace : t.locate p with
  | error f => exact ⟨f, rfl⟩
  | ok place =>
    simp only [hplace, bind, Except.bind] at h ⊢
    cases hentry : t.entries.find? place with
    | none => exact ⟨_, rfl⟩
    | some e =>
      cases e with
      | directory entries => exact ⟨_, rfl⟩
      | file bytes =>
        rw [hentry] at h
        cases h

end FileTree

namespace Project

open Attempt (Ends Within Decides Yields ends_of ends_say yields_of decides_throw)

variable (readers : Readers) (t : FileTree) (project : Path)

theorem settles_look (isKind : Entry → Bool) (p : Path) :
    Settles ((t.test isKind p).mapError (.refused p)) (t.Visible p) (t.shows isKind p) := by
  obtain ⟨hvisible, htest⟩ | ⟨hvisible, f, htest⟩ := t.test_cases isKind p
  · rw [htest]
    exact .inl ⟨hvisible, rfl⟩
  · rw [htest]
    exact .inr ⟨hvisible, _, rfl, fun h => h rfl⟩

theorem settles_hasFile (p : Path) : Settles (hasFile t p) (t.Visible p) (t.shows Entry.isFile p) :=
  settles_look t Entry.isFile p

theorem settles_hasDirectory (p : Path) : Settles (hasDirectory t p) (t.Visible p) (t.shows Entry.isDirectory p) :=
  settles_look t Entry.isDirectory p

theorem textOf_cases (file : Path) (bytes : List UInt8) :
    Utf8.IsEncoded bytes ∧ (∃ s, Utf8.decode? bytes = some s ∧ textOf file bytes = .ok s) ∨
      ¬Utf8.IsEncoded bytes ∧ textOf file bytes = .error (.notUtf8 file) := by
  unfold textOf
  cases hs : Utf8.decode? bytes with
  | none => exact .inr ⟨Utf8.decode?_eq_none.1 hs, rfl⟩
  | some s => exact .inl ⟨⟨s, Utf8.eq_encode_of_decode? hs⟩, s, rfl, rfl⟩

/-! ### Settings -/

/-- A failure of settings. -/
def IsSettingsFault (f : Failure) : Prop := ∃ fault, f = .settings fault

/-- Whether a configuration file that the system opens is text, and its reader does not break down on it. -/
def ConfigurationReadable (file : Path) : Prop := ∀ bytes, t.read file = .ok bytes →
  Utf8.IsEncoded bytes ∧ ∀ s, Utf8.decode? bytes = some s → ∀ cause, readers.settings s ≠ .error (.broken cause)

/-- Whether the settings of a project can be read: the places of their files can be looked at, and the file that counts can
be read. -/
structure SettingsReadable : Prop where
  own : t.Visible (project / settingsFile)
  ownFile : t.isFile (project / settingsFile) = .ok true → ConfigurationReadable readers t (project / settingsFile)
  shared : t.isFile (project / settingsFile) = .ok false → t.Visible (project / toolsFile)
  sharedFile : t.isFile (project / settingsFile) = .ok false → t.isFile (project / toolsFile) = .ok true →
    ConfigurationReadable readers t (project / toolsFile)

theorem settingsReadable_iff : SettingsReadable readers t project ↔ t.Visible (project / settingsFile) ∧
    (t.shows Entry.isFile (project / settingsFile) = true → ConfigurationReadable readers t (project / settingsFile)) ∧
    (t.shows Entry.isFile (project / settingsFile) = false → t.Visible (project / toolsFile) ∧
      (t.shows Entry.isFile (project / toolsFile) = true → ConfigurationReadable readers t (project / toolsFile))) := by
  constructor
  · intro ⟨hown, hownFile, hshared, hsharedFile⟩
    simp only [FileTree.isFile_eq_ok, hown, true_and] at hownFile hshared hsharedFile
    exact ⟨hown, hownFile, fun h => ⟨hshared h, fun h' => hsharedFile h ⟨hshared h, h'⟩⟩⟩
  · intro ⟨hown, hownFile, hshared⟩
    refine ⟨hown, ?_, ?_, ?_⟩
    all_goals simp only [FileTree.isFile_eq_ok, hown, true_and]
    · exact hownFile
    · exact fun h => (hshared h).1
    · exact fun h h' => (hshared h).2 h'.2

section Settings

variable {kind : Failure → Prop} (hsettings : ∀ fault, kind (.settings fault)) (hkind : ∀ f, kind f → f.Reported)

include hsettings

theorem decides_settingsOf (file : Path) (v : Toml.Value) : Decides kind (settingsOf file v) True := by
  have hvalue : Within kind ((Settings.ofValue file v).mapError .settings) := by
    cases Settings.ofValue file v with
    | ok s => trivial
    | error fault => exact hsettings fault
  have hends : Ends (settingsOf file v) ((Settings.ofValue file v).mapError .settings) := by
    unfold settingsOf
    split
    · exact (ends_say _ _).bind (ends_of _)
    · exact ends_of _
  exact ⟨_, hends, iff_true_intro hvalue⟩

include hkind

theorem within_readDocument (file : Path) :
    Within kind (readDocument readers t file) ↔ ConfigurationReadable readers t file := by
  have hunreported {f : Failure} (h : f.report? = none) : ¬kind f := fun hf => hkind f hf h
  unfold readDocument ConfigurationReadable
  cases t.read file with
  | error f => simp [Within, hsettings]
  | ok bytes =>
    simp only [Except.ok.injEq, forall_eq']
    obtain ⟨hencoded, s, hs, htext⟩ | ⟨hencoded, htext⟩ := textOf_cases file bytes
    · simp only [htext, hs, hencoded, true_and, Option.some.injEq, forall_eq', bind, Except.bind]
      cases readers.settings s with
      | ok entries => simp [Within]
      | error f =>
        cases f with
        | refused reason => simp [Within, hsettings]
        | broken cause => simp [Within, hunreported (f := .broken file cause) rfl]
    · simp [htext, hencoded, bind, Except.bind, Within, hunreported (f := .notUtf8 file) rfl]

theorem decides_loadSettings : Decides kind (loadSettings readers t project) (SettingsReadable readers t project) := by
  have hdocument (file : Path) : Decides kind (Attempt.of (readDocument readers t file)) (ConfigurationReadable readers t file) :=
    ⟨_, ends_of _, within_readDocument readers t hsettings hkind file⟩
  have hown := yields_of (settles_hasFile t (project / settingsFile))
  have hshared := yields_of (settles_hasFile t (project / toolsFile))
  unfold loadSettings
  refine (hown.bind_decides hkind (d := if t.shows Entry.isFile (project / settingsFile) then
    ConfigurationReadable readers t (project / settingsFile) else t.Visible (project / toolsFile) ∧
      (t.shows Entry.isFile (project / toolsFile) → ConfigurationReadable readers t (project / toolsFile))) ?_).congr ?_
  · cases t.shows Entry.isFile (project / settingsFile) with
    | true => exact ((hdocument _).bind fun entries _ => decides_settingsOf hsettings _ _).congr (by simp)
    | false =>
      refine hshared.bind_decides hkind ?_
      cases t.shows Entry.isFile (project / toolsFile) with
      | false => exact (Ends.pure _).decides.congr (by simp)
      | true =>
        refine ((hdocument _).bind (d := fun _ => True) fun entries _ => ?_).congr (by simp)
        split
        · split
          · exact decides_settingsOf hsettings _ _
          · exact (Ends.pure _).decides
        · exact (decides_throw _).congr (iff_true_intro (hsettings _))
  · rw [settingsReadable_iff]
    cases t.shows Entry.isFile (project / settingsFile) <;> simp

end Settings

/-! ### Modules -/

/-- The names of the modules in the description of a project; a description that cannot be read gives none. -/
def describedNames : List (Option Text) :=
  match t.read (project / descriptionFile) with
  | .error _ => []
  | .ok bytes =>
    match readers.description bytes with
    | .ok names => names
    | .error _ => []

/-- The names of the modules in the first of some build settings that the system opens; settings that are not text give
none. -/
def includedNames : List Path → List Text
  | [] => []
  | file :: rest =>
    match t.read file with
    | .error _ => includedNames rest
    | .ok bytes =>
      match Utf8.decode? bytes with
      | some s => Gradle.directories (Utf8.plainBreaks s)
      | none => []

/-- The names of modules in the files of a project. Files that cannot be used give none, and neither does a description
in which a module has no name. -/
def usableNames : List Text :=
  (if none ∈ describedNames readers t project then [] else (describedNames readers t project).reduceOption) ++
    includedNames t (buildFiles.map (project / ·))

/-- The project and its modules, if files that cannot be used give no modules. -/
def usableModules : List Path :=
  project :: (usableNames readers t project).eraseDups.map fun name => project / Path.ofText name

/-- The directory of compiled classes of a module, as far as can be seen. -/
def seenClasses? (module : Path) : Option Path := (classesPlaces.map (module / ·)).find? (t.shows Entry.isDirectory)

/-- The directories of compiled classes, if what cannot be used gives none. -/
def usableDirectories : List Path := (usableModules readers t project).filterMap (seenClasses? t)

/-- Whether the description of a project does no harm: its place can be looked at, and its reader, if there is one, does not
break down. -/
structure DescriptionReadable : Prop where
  visible : t.Visible (project / descriptionFile)
  unbroken : ∀ bytes, t.read (project / descriptionFile) = .ok bytes →
    ∀ cause, readers.description bytes = .error (.broken cause) → cause = .missing

/-- Whether build settings do no harm: the places of their files can be looked at, up to the first one that the system opens,
and this one is text. -/
def BuildReadable : List Path → Prop
  | [] => True
  | file :: rest => t.Visible file ∧
    match t.read file with
    | .error _ => BuildReadable rest
    | .ok bytes => Utf8.IsEncoded bytes

/-- Whether places can be looked at, up to the first one that is a directory. -/
def PlacesVisible : List Path → Prop
  | [] => True
  | p :: rest => t.Visible p ∧ (t.shows Entry.isDirectory p = false → PlacesVisible rest)

/-- Whether the directories of compiled classes can be found: the files that name modules do no harm, all modules have names,
and the places of their classes can be looked at. -/
structure ModulesReadable : Prop where
  description : DescriptionReadable readers t project
  build : BuildReadable t (buildFiles.map (project / ·))
  named : none ∉ describedNames readers t project
  places : ∀ module ∈ usableModules readers t project, PlacesVisible t (classesPlaces.map (module / ·))

theorem yields_modulesOfDescription : Yields (modulesOfDescription readers t project)
    (DescriptionReadable readers t project) (describedNames readers t project) := by
  have hunread (text : Text) : Yields (do Logged.debug text; pure [] : Attempt Failure (List (Option Text))) True [] :=
    Ends.yields ((ends_say _ _).bind (.pure _))
  have hiff : DescriptionReadable readers t project ↔ t.Visible (project / descriptionFile) ∧
      ∀ bytes, t.read (project / descriptionFile) = .ok bytes →
        ∀ cause, readers.description bytes = .error (.broken cause) → cause = .missing :=
    ⟨fun h => ⟨h.visible, h.unbroken⟩, fun h => ⟨h.1, h.2⟩⟩
  rw [hiff]
  unfold modulesOfDescription
  refine (yields_of (settles_hasFile t _)).bind ?_
  unfold describedNames
  cases hshows : t.shows Entry.isFile (project / descriptionFile) with
  | false =>
    obtain ⟨f, hread⟩ := FileTree.exists_read_error hshows
    simp only [hread]
    exact (Ends.pure _).yields.congr (by simp)
  | true =>
    cases t.read (project / descriptionFile) with
    | error f => exact (hunread _).congr (by simp)
    | ok bytes =>
      simp only [Except.ok.injEq, forall_eq']
      cases readers.description bytes with
      | ok names => exact (Ends.pure _).yields.congr (by simp)
      | error f =>
        cases f with
        | refused reason => exact (hunread _).congr (by simp)
        | broken cause =>
          cases cause with
          | missing => exact (hunread _).congr (by simp)
          | _ => exact ⟨_, Ends.throw _, .inr ⟨by simp, _, rfl, fun h => h rfl⟩⟩

theorem yields_modulesOfBuild (files : List Path) :
    Yields (modulesOfBuild t files) (BuildReadable t files) (includedNames t files) := by
  induction files with
  | nil => exact (Ends.pure _).yields
  | cons file rest ih =>
    unfold modulesOfBuild BuildReadable includedNames
    refine (yields_of (settles_hasFile t file)).bind ?_
    cases hshows : t.shows Entry.isFile file with
    | false =>
      obtain ⟨f, hread⟩ := FileTree.exists_read_error hshows
      simp only [hread]
      exact ih
    | true =>
      cases t.read file with
      | error f => exact ((ends_say _ _).yields.bind ih).congr (by simp)
      | ok bytes =>
        dsimp only
        obtain ⟨hencoded, s, hs, htext⟩ | ⟨hencoded, htext⟩ := textOf_cases file bytes
        · rw [htext, hs]
          exact Yields.congr (Ends.yields ((ends_of _).bind (.pure _))) (iff_of_true trivial hencoded)
        · rw [htext]
          exact ⟨_, (ends_of _).bind_error, .inr ⟨hencoded, _, rfl, fun h => h rfl⟩⟩

theorem map_some_reduceOption {α : Type} {l : List (Option α)} (h : none ∉ l) : l.reduceOption.map some = l := by
  induction l with
  | nil => rfl
  | cons a l ih =>
    rw [List.mem_cons, not_or] at h
    cases a with
    | none => exact absurd rfl h.1
    | some a => rw [List.reduceOption_cons_of_some, List.map_cons, ih h.2]

/-- Renaming first occurrences. -/
theorem eraseDups_map {α β : Type} [BEq α] [LawfulBEq α] [BEq β] [LawfulBEq β] {f : α → β}
    (hf : ∀ a b, f a = f b → a = b) (l : List α) : (l.map f).eraseDups = l.eraseDups.map f := by
  induction hn : l.length using Nat.strongRecOn generalizing l with
  | _ n ih =>
    subst hn
    cases l with
    | nil => rfl
    | cons a l =>
      have hfilter : (l.map f).filter (fun b => !b == f a) = (l.filter fun b => !b == a).map f := by
        rw [List.filter_map]
        refine congrArg (List.map f) (List.filter_congr fun b _ => ?_)
        have hiff : f b = f a ↔ b = a := ⟨hf b a, congrArg f⟩
        rw [Function.comp_apply, Bool.not_inj_iff, Bool.eq_iff_iff, beq_iff_eq, beq_iff_eq, hiff]
      rw [List.map_cons, List.eraseDups_cons, List.eraseDups_cons, hfilter, List.map_cons]
      rw [ih _ (Nat.lt_succ_of_le (List.length_filter_le _ _)) _ rfl]

/-- Modules that all have a name are where their names lead. -/
theorem namedDirectories_map_some (names : List Text) :
    namedDirectories project (names.map some) = .ok (names.eraseDups.map fun name => project / Path.ofText name) := by
  unfold namedDirectories
  rw [eraseDups_map (fun _ _ => Option.some.inj), List.mapM_map]
  exact List.mapM_pure

theorem settles_namedDirectories (names : List (Option Text)) : Settles (namedDirectories project names) (none ∉ names)
    (names.reduceOption.eraseDups.map fun name => project / Path.ofText name) := by
  by_cases hnone : none ∈ names
  · refine .inr ⟨not_not_intro hnone, .namelessModule project, ?_, fun h => h rfl⟩
    unfold namedDirectories
    rw [← List.mem_eraseDups] at hnone
    generalize names.eraseDups = names at hnone ⊢
    induction names with
    | nil => exact absurd hnone List.not_mem_nil
    | cons name names ih =>
      rw [List.mapM_cons]
      cases name with
      | none => rfl
      | some name =>
        rw [ih (by simpa using hnone)]
        rfl
  · refine .inl ⟨hnone, ?_⟩
    rw [← namedDirectories_map_some, map_some_reduceOption hnone]

theorem yields_moduleDirectories : Yields (moduleDirectories readers t project)
    (DescriptionReadable readers t project ∧ BuildReadable t (buildFiles.map (project / ·)) ∧
      none ∉ describedNames readers t project)
    ((usableNames readers t project).eraseDups.map fun name => project / Path.ofText name) := by
  unfold moduleDirectories
  refine (yields_modulesOfDescription readers t project).bind ((yields_modulesOfBuild t _).bind (yields_of ?_))
  refine ((settles_namedDirectories project _).congr (by simp)).congr_value fun hnamed => ?_
  have hincluded (l : List Text) : (l.map some).reduceOption = l := by simp [List.reduceOption]
  rw [usableNames, if_neg hnamed, List.reduceOption_append, hincluded]

theorem settles_firstDirectory (places : List Path) :
    Settles (firstDirectory t places) (PlacesVisible t places) (places.find? (t.shows Entry.isDirectory)) := by
  induction places with
  | nil => exact Settles.ok none
  | cons p rest ih =>
    unfold firstDirectory PlacesVisible
    refine (settles_hasDirectory t p).bind ?_
    cases hshows : t.shows Entry.isDirectory p with
    | true =>
      rw [List.find?_cons_of_pos hshows]
      exact (Settles.ok _).congr (by simp)
    | false =>
      rw [List.find?_cons_of_neg (by simp [hshows])]
      exact ih.congr (by simp)

/-- The directories of compiled classes are found as if what cannot be used gave none, or the search fails without a
report. -/
theorem yields_classesDirectories : Yields (classesDirectories readers t project) (ModulesReadable readers t project)
    (usableDirectories readers t project) := by
  have hmodules := yields_moduleDirectories readers t project
  have hplaces : Settles ((usableModules readers t project).mapM (classesOfModule t))
      (∀ module ∈ usableModules readers t project, PlacesVisible t (classesPlaces.map (module / ·)))
      ((usableModules readers t project).map (seenClasses? t)) :=
    Settles.mapM fun module _ => settles_firstDirectory t _
  unfold classesDirectories
  refine (hmodules.bind ((yields_of hplaces).bind (Ends.yields ((ends_say _ _).bind ?_)))).congr ?_
  · rw [List.filterMap_map]
    exact .pure _
  · constructor
    · rintro ⟨⟨hdescription, hbuild, hnamed⟩, hplaces, -⟩
      exact ⟨hdescription, hbuild, hnamed, hplaces⟩
    · rintro ⟨hdescription, hbuild, hnamed, hplaces⟩
      exact ⟨⟨hdescription, hbuild, hnamed⟩, hplaces, trivial⟩

/-! ### Sources -/

/-- Whether all paths can be looked at that are looked at below a place: the place itself, every directory, and everything
else that is wanted. -/
def AllVisible (isWanted : List Text → Bool) (p : Path) : Prop := ∀ q ∈ t.pathsBelow isWanted p, t.Visible q

theorem settles_lookBelow (isWanted : List Text → Bool) (p : Path) :
    Settles (lookBelow t isWanted p) (AllVisible t isWanted p) () := by
  unfold lookBelow AllVisible
  induction t.pathsBelow isWanted p with
  | nil => exact (Settles.ok ()).congr (by simp)
  | cons q rest ih =>
    rw [List.forall_mem_cons, FileTree.lookAt]
    obtain ⟨hvisible, htest⟩ | ⟨hvisible, f, htest⟩ := t.test_cases Entry.isDirectory q
    · rw [FileTree.isDirectory, htest]
      exact ih.congr (and_iff_right hvisible).symm
    · rw [FileTree.isDirectory, htest]
      exact .inr ⟨fun h => hvisible h.1, _, rfl, fun h => h rfl⟩

/-- Whether the reader of sources does not break down on a file, if it is asked to read it. -/
def SourceReadable (marker : Chars) (file : Path) : Prop := ∀ bytes, t.read file = .ok bytes →
  Java.holds marker (Utf8.plainBreaks (Utf8.decodeLossy bytes)) = true →
    ∀ cause, readers.source (Utf8.plainBreaks (Utf8.decodeLossy bytes)) ≠ .error (.broken cause)

/-- Whether the reader of sources does not break down on any of some files, up to the first one with the main class. -/
def SourcesReadable (marker : Chars) : List Path → Prop
  | [] => True
  | file :: rest => SourceReadable readers t marker file ∧
    (Ends (packageInFile readers t marker file) (.ok none) → SourcesReadable marker rest)

/-- Whether the packages below the main class can be found in the sources at a place: whatever is looked at can be, and the
reader of sources does not break down. -/
structure PackagesReadable (sources : Path) : Prop where
  visible : t.Visible sources
  directories : t.isDirectory sources = .ok true → AllVisible t (fun _ => false) sources
  files : t.isDirectory sources = .ok true →
    SourcesReadable readers t mainMarker ((t.withEnding ".java" sources).map Prod.fst)
  everything : t.isDirectory sources = .ok true → ∀ main, main ≠ [] →
    Ends (mainPackage readers t mainMarker sources) (.ok (some main)) → AllVisible t (fun _ => true) sources

theorem packagesReadable_iff {sources : Path} : PackagesReadable readers t sources ↔ t.Visible sources ∧
    (t.shows Entry.isDirectory sources = true → AllVisible t (fun _ => false) sources ∧
      SourcesReadable readers t mainMarker ((t.withEnding ".java" sources).map Prod.fst) ∧
      ∀ main, main ≠ [] → Ends (mainPackage readers t mainMarker sources) (.ok (some main)) →
        AllVisible t (fun _ => true) sources) := by
  constructor
  · intro ⟨hvisible, hdirectories, hfiles, heverything⟩
    simp only [FileTree.isDirectory_eq_ok, hvisible, true_and] at hdirectories hfiles heverything
    exact ⟨hvisible, fun h => ⟨hdirectories h, hfiles h, heverything h⟩⟩
  · intro ⟨hvisible, hrest⟩
    refine ⟨hvisible, ?_, ?_, ?_⟩
    all_goals
      rw [FileTree.isDirectory_eq_ok]
      intro h
    · exact (hrest h.2).1
    · exact (hrest h.2).2.1
    · exact (hrest h.2).2.2

theorem settles_sourceRoot : Settles (sourceRoot t project) (t.Visible (project / sourcesPlace))
    (if t.shows Entry.isDirectory (project / sourcesPlace) then some (project / sourcesPlace) else none) := by
  unfold sourceRoot
  refine ((settles_hasDirectory t (project / sourcesPlace)).bind (d := True) ?_).congr (by simp)
  cases t.shows Entry.isDirectory (project / sourcesPlace) with
  | true => exact Settles.ok _
  | false => exact Settles.ok _

section Sources

variable {kind : Failure → Prop} (hkind : ∀ f, kind f → f.Reported)

include hkind

theorem decides_packageOfAnnotated (marker : Chars) (file : Path) (source : Chars) :
    Decides kind (packageOfAnnotated readers marker file source) (∀ cause, readers.source source ≠ .error (.broken cause)) := by
  unfold packageOfAnnotated
  cases readers.source source with
  | ok declared => exact (Ends.pure _).decides.congr (by simp)
  | error f =>
    cases f with
    | refused reason => exact Decides.congr (Ends.decides ((ends_say _ _).bind (.pure _))) (by simp)
    | broken cause =>
      refine (decides_throw _).congr (iff_of_false (fun h => hkind _ h rfl) ?_)
      intro h
      exact h cause rfl

theorem decides_packageInFile (marker : Chars) (file : Path) :
    Decides kind (packageInFile readers t marker file) (SourceReadable readers t marker file) := by
  unfold packageInFile SourceReadable
  cases t.read file with
  | error f => exact Decides.congr (Ends.decides ((ends_say _ _).bind (.pure _))) (by simp)
  | ok bytes =>
    simp only [Except.ok.injEq, forall_eq']
    cases Java.holds marker (Utf8.plainBreaks (Utf8.decodeLossy bytes)) with
    | false => exact (Ends.pure _).decides.congr (by simp)
    | true =>
      simp only [if_true, forall_const]
      refine ((decides_packageOfAnnotated readers hkind marker file _).bind (d := fun _ => True) fun found _ => ?_).congr
        (by simp)
      cases found with
      | none => exact (Ends.pure _).decides
      | some package => exact Ends.decides ((ends_say _ _).bind (.pure _))

theorem decides_annotatedPackage (marker : Chars) (files : List Path) :
    Decides kind (annotatedPackage readers t marker files) (SourcesReadable readers t marker files) := by
  induction files with
  | nil => exact (Ends.pure _).decides
  | cons file rest ih =>
    unfold annotatedPackage SourcesReadable
    refine ((decides_packageInFile readers t hkind marker file).bind
      (d := fun found => found = none → SourcesReadable readers t marker rest) fun found _ => ?_).congr ?_
    · cases found with
      | none => exact ih.congr (by simp)
      | some package => exact (Ends.pure _).decides.congr (by simp)
    · refine and_congr_right fun _ => ⟨fun h hnone => h none hnone rfl, fun h found hfound hnone => ?_⟩
      subst hnone
      exact h hfound

theorem decides_mainPackage (sources : Path) : Decides kind (mainPackage readers t mainMarker sources)
    (AllVisible t (fun _ => false) sources ∧
      SourcesReadable readers t mainMarker ((t.withEnding ".java" sources).map Prod.fst)) :=
  (yields_of (settles_lookBelow t _ sources)).bind_decides hkind (decides_annotatedPackage readers t hkind _ _)

end Sources

theorem gives_findSubpackages (sources : Path) (main : Text) :
    Logged.Gives (findSubpackages t sources main) (subpackages t sources main).toList :=
  (Logged.gives_say _ _).bind (.pure _)

end Project

end Coupling
