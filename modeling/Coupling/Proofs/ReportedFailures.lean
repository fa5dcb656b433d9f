import Coupling.Command.Execute
import Coupling.Proofs.Course

/-!
# Failures that are reported

Whatever the files of a project hold, an analysis comes to an end, and a command that fails should say why and end with
the status one. This is so exactly as long as what has to be looked at can be looked at, what has to be text is text, the
readers do not break down, and modules have names. Class files, and settings that are text but make no sense, never do any
harm.
-/

namespace Coupling

open Attempt (Ends EndsIn Within Decides ends_say ends_lift yields_of decides_throw)

/-! ### Analyses -/

namespace Analysis

variable {readers : Readers} {t : FileTree} {r : Request}

/-- An analysis finds what it needs, as far as it gets. -/
structure Request.Readable (readers : Readers) (t : FileTree) (r : Request) : Prop where
  encodable : r.project.isEncodable = true
  visible : t.Visible (r.root t)
  settings : Begins t r → r.settings = none → Project.SettingsReadable readers t (r.root t)
  packages : ∀ s, Begins t r → Ends (r.chooseSettings readers t) (.ok s) →
    ChoiceReadable readers t (r.root t) r.packages s
  located : ∀ s packages, Chooses readers t r s packages → packages ≠ [] →
    ClassesReadable readers t (r.root t) r.classesDirectory
  classes : ∀ s packages roots, Locates readers t r s packages roots → ClassesVisible t roots

variable (readers t r)

theorem decides_analyzePackages (s : Settings) (packages : List Text) :
    Decides Failure.Reported (analyzePackages readers t r s packages) (ClassesReadable readers t (r.root t) r.classesDirectory ∧
      ∀ roots, Ends (locateClasses readers t (r.root t) r.classesDirectory) (.ok roots) → ClassesVisible t roots) := by
  unfold analyzePackages
  refine (decides_locateClasses readers t (r.root t) r.classesDirectory).bind fun roots _ => ?_
  have hlook := yields_of (settles_lookForClasses t roots)
  obtain ⟨m, hm, -⟩ := exists_gives_measure t roots packages s r.askings
  refine (ends_say _ _).bind_decides
    ((hlook.bind_decides (fun _ => id) ((ends_lift hm).bind_decides (c := True) ?_)).congr (by simp))
  split
  · exact (Ends.pure _).decides
  · exact Ends.decides ((ends_say _ _).bind ((ends_say _ _).bind (.pure _)))

/-- The stages of an analysis after its project was found, one in the other. -/
def StagesReadable : Prop :=
  (r.settings = none → Project.SettingsReadable readers t (r.root t)) ∧
    ∀ s, Ends (r.chooseSettings readers t) (.ok s) → ChoiceReadable readers t (r.root t) r.packages s ∧
      ∀ packages, Ends (choosePackages readers t (r.root t) r.packages s) (.ok packages) → packages ≠ [] →
        ClassesReadable readers t (r.root t) r.classesDirectory ∧
          ∀ roots, Ends (locateClasses readers t (r.root t) r.classesDirectory) (.ok roots) → ClassesVisible t roots

theorem Begins.readable_iff (h : Begins t r) : r.Readable readers t ↔ StagesReadable readers t r := by
  constructor
  · intro hreadable
    refine ⟨hreadable.settings h, fun s hs => ⟨hreadable.packages s h hs, fun packages hchosen hpackages => ?_⟩⟩
    have hchooses : Chooses readers t r s packages := ⟨h, hs, hchosen⟩
    exact ⟨hreadable.located s packages hchooses hpackages,
      fun roots hroots => hreadable.classes s packages roots ⟨hchooses, hpackages, hroots⟩⟩
  · intro ⟨hsettings, hstages⟩
    refine ⟨h.encodable, (FileTree.isDirectory_eq_ok.1 h.isDirectory).1, fun _ => hsettings, fun s _ hs => (hstages s hs).1,
      fun s packages hchooses hpackages => ?_, fun s packages roots hlocates => ?_⟩
    · exact ((hstages s hchooses.settings).2 packages hchooses.packages hpackages).1
    · obtain ⟨⟨-, hs, hchosen⟩, hpackages, hroots⟩ := hlocates
      exact ((hstages s hs).2 packages hchosen hpackages).2 roots hroots

/-- What is not a directory is not looked at any further. -/
theorem Request.readable_of_not_begins (hencodable : r.project.isEncodable = true) (hvisible : t.Visible (r.root t))
    (h : ¬Begins t r) : r.Readable readers t where
  encodable := hencodable
  visible := hvisible
  settings hbegins := absurd hbegins h
  packages _ hbegins := absurd hbegins h
  located _ _ hchooses := absurd hchooses.begins h
  classes _ _ _ hlocates := absurd hlocates.chooses.begins h

/-- Whether a failure is reported depends on nothing but what the analysis finds. -/
theorem decides_run : Decides Failure.Reported (run readers t r) (r.Readable readers t) := by
  have hlook := yields_of (Project.settles_hasDirectory t (r.root t))
  unfold run
  cases hencodable : r.project.isEncodable with
  | false =>
    refine ⟨_, (Ends.throw _).bind_error, iff_of_false (fun h => h rfl) fun h => ?_⟩
    exact absurd (hencodable.symm.trans h.encodable) Bool.false_ne_true
  | true =>
    simp only [Bool.not_true, Bool.false_eq_true, if_false]
    by_cases hbegins : Begins t r
    · rw [hbegins.readable_iff]
      obtain ⟨hvisible, hshows⟩ := FileTree.isDirectory_eq_ok.1 hbegins.isDirectory
      rw [hshows] at hlook
      refine (hlook.bind_decides (fun _ => id) ((decides_chooseSettings readers t r).bind fun s _ =>
        (decides_choosePackages readers t (r.root t) r.packages s).bind
          (d := fun packages => packages ≠ [] → ClassesReadable readers t (r.root t) r.classesDirectory ∧
            ∀ roots, Ends (locateClasses readers t (r.root t) r.classesDirectory) (.ok roots) → ClassesVisible t roots)
          fun packages _ => ?_)).congr (and_iff_right hvisible)
      split
      · next hnone => exact (Ends.pure _).decides.congr (by simp [hnone])
      · next hsome => exact (decides_analyzePackages readers t r s packages).congr (by simp [hsome])
    · obtain ⟨_, hends, ⟨hvisible, rfl⟩ | ⟨hvisible, f, rfl, hf⟩⟩ := hlook
      · have hshows : t.shows Entry.isDirectory (r.root t) = false := by
          rw [Bool.eq_false_iff]
          exact fun h => hbegins ⟨hencodable, FileTree.isDirectory_eq_ok.2 ⟨hvisible, h⟩⟩
        rw [hshows] at hends
        refine ⟨_, hends.bind (Ends.throw _).bind_error, iff_of_true (reported_analysis _) ?_⟩
        exact Request.readable_of_not_begins readers t r hencodable hvisible hbegins
      · exact ⟨_, hends.bind_error, iff_of_false hf fun h => hvisible h.visible⟩

end Analysis

/-! ### Commands -/

namespace Command

variable (readers : Readers) (t : FileTree) (i : Invocation)

/-- The analysis that a command asks for, with the settings of the project. -/
def Invocation.request (i : Invocation) (s : Settings) : Analysis.Request :=
  { project := i.project
    packages := i.packages
    classesDirectory := i.classesDirectory
    settings := some (s.override i.overrides) }

/-- A command finds what it needs: the settings of the project, and what the analysis needs with them. -/
structure Invocation.Readable : Prop where
  settings : Project.SettingsReadable readers t i.project
  analysis : ∀ s, Ends (Project.loadSettings readers t i.project) (.ok s) → (i.request s).Readable readers t

theorem decides_analyze : Decides Failure.Reported (analyze readers t i) (i.Readable readers t) := by
  have hloaded := Project.decides_loadSettings readers t i.project Analysis.reported_settings fun _ => id
  refine (hloaded.bind fun s _ => Analysis.decides_run readers t (i.request s)).congr ?_
  exact ⟨fun h => ⟨h.1, h.2⟩, fun h => ⟨h.settings, h.analysis⟩⟩

theorem exists_gives_deliver (r : AnalysisResult) : ∃ outcome, Logged.Gives (deliver t i r) outcome := by
  unfold deliver
  cases destination? i with
  | none => exact ⟨_, .pure _⟩
  | some file =>
    dsimp only
    split
    · split
      · exact ⟨_, (Logged.gives_say _ _).bind (.pure _)⟩
      · exact ⟨_, .pure _⟩
    · exact ⟨_, (Logged.gives_say _ _).bind (.pure _)⟩
    · exact ⟨_, .pure _⟩

/-- A command comes to an end, with the status one and no file changed if its analysis fails. -/
def Handles : Prop := ∃ outcome, Logged.Gives (execute readers t i) outcome ∧
  ∀ f, Ends (analyze readers t i) (.error f) → outcome = { ending := .ok 1, files := t }

theorem handles_iff : Handles readers t i ↔ i.Readable readers t := by
  obtain ⟨r, hr, hiff⟩ := decides_analyze readers t i
  rw [← hiff]
  cases r with
  | ok result =>
    obtain ⟨outcome, houtcome⟩ := exists_gives_deliver t i result
    refine iff_of_true ⟨outcome, Logged.Gives.bind hr houtcome, fun f hf => ?_⟩ trivial
    cases hf.unique hr
  | error f =>
    cases hreport : f.report? with
    | none =>
      have hexecute : Logged.Gives (execute readers t i) { ending := .error f, files := t } := by
        refine Logged.Gives.bind hr ?_
        dsimp only
        rw [hreport]
        exact .pure _
      refine iff_of_false ?_ fun h => h hreport
      rintro ⟨outcome, houtcome, hall⟩
      rw [hall f hr] at houtcome
      cases congrArg Outcome.ending (houtcome.unique hexecute)
    | some report =>
      refine iff_of_true ⟨_, Logged.Gives.bind hr ?_, fun _ _ => rfl⟩ fun h => ?_
      · dsimp only
        rw [hreport]
        exact (Logged.gives_say _ _).bind (.pure _)
      · rw [hreport] at h
        cases h

end Command

/-- What a bad project comes to, whatever the readers do. Reading settings gives some, or a failure that is reported, exactly if
their file is text on which its reader does not break down. Files that cannot be used give no modules, rather than a
failure, exactly if the reader of descriptions does not break down, the description names its modules, the build settings are
text, and the places of modules can be looked at. So an analysis has a result or a failure that is reported, and a command
whose analysis fails ends with the status one, exactly if they find what they need, as far as they get; what else is in the
project does not matter. -/
theorem failures_reported (readers : Readers) (t : FileTree) (project : Path) (r : Analysis.Request) (i : Command.Invocation) :
    (EndsIn (Project.loadSettings readers t project) (Within Project.IsSettingsFault) ↔
      Project.SettingsReadable readers t project) ∧
    (Ends (Project.classesDirectories readers t project) (.ok (Project.usableDirectories readers t project)) ↔
      Project.ModulesReadable readers t project) ∧
    (EndsIn (Analysis.run readers t r) (Within Failure.Reported) ↔ r.Readable readers t) ∧
    (Command.Handles readers t i ↔ i.Readable readers t) := by
  have hkind (f : Failure) (h : Project.IsSettingsFault f) : f.Reported := by
    obtain ⟨fault, rfl⟩ := h
    exact Analysis.reported_settings fault
  refine ⟨?_, ?_, ?_, Command.handles_iff readers t i⟩
  · exact (Project.decides_loadSettings readers t project (fun fault => ⟨fault, rfl⟩) hkind).endsIn_iff
  · exact (Project.yields_classesDirectories readers t project).ends_iff
  · exact (Analysis.decides_run readers t r).endsIn_iff

/-- A project whose settings are not text, and whose description ends too early. -/
def badProject : FileTree :=
  { entries := [("p", .directory [(".mainseq.toml", .file [0xFF]), ("pom.xml", .file (Utf8.encode "<project>")),
      ("target", .directory [("classes", .directory [])])])] }

/-- The name of a module that the system does not look for. -/
def longName : Text := List.replicate 256 (CodePoint.ofChar 'a')

/-- A project that includes a module of this name. -/
def longNamed : FileTree :=
  { entries := [("p", .directory [("settings.gradle", .file (Utf8.encode ("include '" ++ longName ++ "'"))),
      ("target", .directory [("classes", .directory [])])])] }

/-- Neither of the files of the first project is reported as bad, and an analysis and a command fail without a report. The
module of the second project is not left out either. -/
theorem badProject_unreported :
    Ends (Project.loadSettings .standard badProject "p") (.error (.notUtf8 "p/.mainseq.toml")) ∧
    Ends (Project.classesDirectories .standard badProject "p") (.error (.broken "p/pom.xml" .malformed)) ∧
    ¬EndsIn (Analysis.run .standard badProject { project := "p", packages := some ["a"] }) (Within Failure.Reported) ∧
    ¬Command.Handles .standard badProject { project := "p" } ∧
    Ends (Project.classesDirectories .standard longNamed "p")
      (.error (.refused ("p" / Path.ofText longName / "target/classes") .nameTooLong)) := by
  have hsettings (project : Path) := Project.decides_loadSettings .standard badProject project Analysis.reported_settings
    fun _ => id
  have hends : Ends (Project.loadSettings .standard badProject "p") (.error (.notUtf8 "p/.mainseq.toml")) :=
    (hsettings "p").ends_of_run (by decide +kernel)
  have hroot : Ends (Project.loadSettings .standard badProject "/p") (.error (.notUtf8 "/p/.mainseq.toml")) :=
    (hsettings "/p").ends_of_run (by decide +kernel)
  refine ⟨hends, ?_, ?_, ?_, ?_⟩
  · exact (Project.yields_classesDirectories _ _ _).ends_of_run (by decide +kernel)
  · rw [(Analysis.decides_run _ _ _).endsIn_iff]
    intro h
    have hbegins : Analysis.Begins badProject { project := "p", packages := some ["a"] } := ⟨rfl, rfl⟩
    exact ((hsettings "/p").within_iff hroot).2 (h.settings hbegins rfl) rfl
  · rw [Command.handles_iff]
    intro h
    exact ((hsettings "p").within_iff hends).2 h.settings rfl
  · exact (Project.yields_classesDirectories _ _ _).ends_of_run (by decide +kernel)

end Coupling
