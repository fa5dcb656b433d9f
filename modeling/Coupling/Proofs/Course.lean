import Coupling.Analysis.Run
import Coupling.Proofs.ProjectFiles

/-!
# The course of an analysis

An analysis goes through a few stages, each of which may be the last: the project has to be a directory, the settings are
read, the packages are chosen, the compiled classes are located and looked at, and the class files are scanned. What it comes
to never depends on what the log holds, and everything that can be said of it follows from its course.
-/

namespace Coupling.Analysis

open Attempt (Ends Within Decides ends_of ends_say ends_lift yields_of decides_throw)
open Logged (Gives gives_say gives_forM)
open Project (AllVisible PackagesReadable SettingsReadable ModulesReadable)

variable (readers : Readers) (t : FileTree)

theorem reported_settings (fault : Settings.Fault) : (Failure.settings fault).Reported := Option.some_ne_none _

theorem reported_analysis (fault : AnalysisFault) : (Failure.analysis fault).Reported := Option.some_ne_none _

/-! ### Packages -/

theorem decides_locatePackages (project : Path) : Decides Failure.Reported (locatePackages readers t project)
    (PackagesReadable readers t (project / Project.sourcesPlace)) := by
  have hroot := yields_of (Project.settles_sourceRoot t project)
  rw [Project.packagesReadable_iff]
  unfold locatePackages
  refine hroot.bind_decides (fun _ => id) ?_
  cases hshows : t.shows Entry.isDirectory (project / Project.sourcesPlace) with
  | false => exact (decides_throw _).congr (by simp [reported_analysis])
  | true =>
    refine ((Project.decides_mainPackage readers t (fun _ => id) _).bind (d := fun main => ∀ name, main = some name → name ≠ [] →
      AllVisible t (fun _ => true) (project / Project.sourcesPlace)) fun main _ => ?_).congr ?_
    · match main with
      | none | some [] => exact (decides_throw _).congr (by simp [reported_analysis])
      | some (c :: main) =>
        have hlook := yields_of (Project.settles_lookBelow t (fun _ => true) (project / Project.sourcesPlace))
        have hfound := ends_lift (ε := Failure) (Project.gives_findSubpackages t (project / Project.sourcesPlace) (c :: main))
        refine ((ends_say _ _).bind_decides
          (hlook.bind_decides (fun _ => id) (hfound.bind_decides (c := True) ?_))).congr (by simp)
        cases (Project.subpackages t (project / Project.sourcesPlace) (c :: main)).toList with
        | nil => exact (decides_throw _).congr (iff_true_intro (reported_analysis _))
        | cons p packages => exact Ends.decides ((ends_say _ _).bind (.pure _))
    · simp only [forall_const, and_assoc]
      refine and_congr_right fun _ => and_congr_right fun _ => ⟨fun h main hmain hends => ?_, fun h _ hends main hmain => ?_⟩
      · exact h _ hends main rfl hmain
      · subst hmain
        exact fun hne => h main hne hends

/-- Whether packages can be chosen: they are found in the sources only if none are asked for or set. -/
def ChoiceReadable (project : Path) (asked : Option (List Text)) (s : Settings) : Prop :=
  asked = none → s.packages = [] → PackagesReadable readers t (project / Project.sourcesPlace)

theorem decides_choosePackages (project : Path) (asked : Option (List Text)) (s : Settings) :
    Decides Failure.Reported (choosePackages readers t project asked s) (ChoiceReadable readers t project asked s) := by
  unfold choosePackages ChoiceReadable
  cases asked with
  | some packages => exact (Ends.pure _).decides.congr (by simp)
  | none =>
    dsimp only
    split
    · next hnone =>
      refine ((decides_locatePackages readers t project).bind (d := fun _ => True) fun packages _ => ?_).congr (by simp [hnone])
      exact (Ends.pure _).decides
    · next hsome => exact (Ends.pure _).decides.congr (by simp [hsome])

/-! ### Classes -/

/-- Whether compiled classes can be located: the directory that is given can be looked at, or else the modules can be found,
and if they have no classes, so can everything that is searched. -/
def ClassesReadable (project : Path) : Option Path → Prop
  | some directory => t.Visible directory
  | none => ModulesReadable readers t project ∧
    (Project.usableDirectories readers t project = [] → t.withEnding ".class" project = [] →
      AllVisible t (fun _ => false) project)

theorem decides_locateClasses (project : Path) (given : Option Path) :
    Decides Failure.Reported (locateClasses readers t project given) (ClassesReadable readers t project given) := by
  unfold locateClasses ClassesReadable
  cases given with
  | some directory =>
    refine ((yields_of (Project.settles_hasDirectory t directory)).bind_decides (fun _ => id) (d := True) ?_).congr (by simp)
    cases t.shows Entry.isDirectory directory with
    | true => exact (Ends.pure _).decides
    | false => exact (decides_throw _).congr (iff_true_intro (reported_analysis _))
  | none =>
    refine (Project.yields_classesDirectories readers t project).bind_decides (fun _ => id) ?_
    cases Project.usableDirectories readers t project with
    | cons directory directories => exact (Ends.pure _).decides.congr (by simp)
    | nil =>
      by_cases hnone : t.withEnding ".class" project = []
      · have hlook := yields_of (Project.settles_lookBelow t (fun _ => false) project)
        simp only [hnone, if_true, forall_const]
        refine (hlook.bind_decides (fun _ => id) (decides_throw _)).congr ?_
        exact and_iff_left (reported_analysis _)
      · simp only [hnone, if_false]
        exact (Ends.pure _).decides.congr (by simp)

/-! ### Scanning -/

theorem gives_logMetrics (g : Graph) (packages : List Text) : Gives (logMetrics g packages) (g.metrics packages) :=
  (gives_forM fun _ => gives_say _ _).bind (.pure _)

/-- What can be said of the numbers of a scan: they come from a graph of classes that were looked for in the packages. -/
structure IsMeasured (packages : List Text) (m : Measured) : Prop where
  /-- The graph holds recorded classes. -/
  recorded : ∃ restricted calls, (∀ k ∈ calls, k.targets = packages) ∧
    m.graph = (calls : List Graph.Call).foldl Graph.recordCall { restricted }
  /-- Unless the scan was called off, the metrics are those of the graph. -/
  metrics : m.scan.cancelled = false → m.metrics = m.graph.metrics packages

/-- The scan that looks for the classes of some packages. -/
def scanOptions (packages : List Text) (s : Settings) (askings : Option Nat) : Scan.Options :=
  { targets := packages, builtinPrefixes := s.builtinPrefixes, workers := s.workers, askings }

/-- The graph of the classes in some files. -/
def graphOf (o : Scan.Options) (restricted : Bool) (files : List Path) : Graph :=
  ((Scan.classes t.read o.targets files).map (Scan.call o)).foldl Graph.recordCall { restricted }

/-- The files that a scan takes in. -/
def takenIn (o : Scan.Options) (files : List Path) : List Path := files.take (Scan.reach o files.length).1

/-- What comes of the files that a scan takes in. -/
structure IsScanned (packages : List Text) (s : Settings) (askings : Option Nat) (files : List Path) (m : Measured) :
    Prop where
  graph : m.graph = graphOf t (scanOptions packages s askings) s.restrictToTargets
    (takenIn (scanOptions packages s askings) files)
  scanned : m.scan.scanned = (takenIn (scanOptions packages s askings) files).length
  cancelled : m.scan.cancelled = (Scan.reach (scanOptions packages s askings) files.length).2
  metrics : m.metrics = if m.scan.cancelled then [] else m.graph.metrics packages

theorem exists_gives_scanned (roots : List Path) {packages : List Text} (hpackages : packages ≠ []) (s : Settings)
    (askings : Option Nat) : ∃ m, Gives (measure t roots packages s askings) m ∧
      IsScanned t packages s askings (roots.flatMap (Scan.classFiles t)) m := by
  obtain ⟨g, scan, hscan, hgraph, hscanned, hreach⟩ : ∃ g scan, Gives (Scan.run t.read (scanOptions packages s askings)
      { restricted := s.restrictToTargets } (roots.flatMap (Scan.classFiles t))) (g, scan) ∧
        g = graphOf t (scanOptions packages s askings) s.restrictToTargets
          (takenIn (scanOptions packages s askings) (roots.flatMap (Scan.classFiles t))) ∧
        scan.scanned = (takenIn (scanOptions packages s askings) (roots.flatMap (Scan.classFiles t))).length ∧
        scan.cancelled = (Scan.reach (scanOptions packages s askings) (roots.flatMap (Scan.classFiles t)).length).2 :=
    ⟨_, _, Scan.gives_run_reach t.read hpackages _ _, rfl, rfl, rfl⟩
  unfold measure
  dsimp only
  rw [if_neg hpackages]
  by_cases hcancelled : scan.cancelled = true
  · refine ⟨{ scan, graph := g }, (gives_say _ _).bind (hscan.bind ?_), hgraph, hscanned, hreach, (if_pos hcancelled).symm⟩
    dsimp only
    rw [if_pos hcancelled]
    exact (gives_say _ _).bind (.pure _)
  · refine ⟨{ metrics := g.metrics packages, scan, graph := g }, (gives_say _ _).bind (hscan.bind ?_), hgraph, hscanned,
      hreach, (if_neg hcancelled).symm⟩
    dsimp only
    rw [if_neg hcancelled]
    exact (gives_say _ _).bind ((gives_logMetrics g packages).bind (.pure _))

theorem exists_gives_measure (roots : List Path) (packages : List Text) (s : Settings) (askings : Option Nat) :
    ∃ m, Gives (measure t roots packages s askings) m ∧ IsMeasured packages m := by
  by_cases hpackages : packages = []
  · unfold measure
    rw [if_pos hpackages]
    subst hpackages
    exact ⟨_, .pure _, ⟨s.restrictToTargets, [], by simp, rfl⟩, fun _ => rfl⟩
  · obtain ⟨m, hm, hscanned⟩ := exists_gives_scanned t roots hpackages s askings
    refine ⟨m, hm, ⟨_, _, fun k hk => ?_, hscanned.graph⟩, fun h => ?_⟩
    · obtain ⟨c, -, rfl⟩ := List.mem_map.1 hk
      rfl
    · rw [hscanned.metrics, h]
      rfl

/-! ### Stages -/

variable (r : Request)

theorem decides_chooseSettings : Decides Failure.Reported (r.chooseSettings readers t)
    (r.settings = none → SettingsReadable readers t (r.root t)) := by
  unfold Request.chooseSettings
  cases r.settings with
  | some s => exact (Ends.pure _).decides.congr (by simp)
  | none =>
    exact (Project.decides_loadSettings readers t _ reported_settings fun _ => id).congr (by simp)

/-- An analysis gets as far as the settings. -/
structure Begins : Prop where
  encodable : r.project.isEncodable = true
  isDirectory : t.isDirectory (r.root t) = .ok true

/-- An analysis gets as far as the choice of its packages. -/
structure Chooses (s : Settings) (packages : List Text) : Prop where
  begins : Begins t r
  settings : Ends (r.chooseSettings readers t) (.ok s)
  packages : Ends (choosePackages readers t (r.root t) r.packages s) (.ok packages)

/-- An analysis gets as far as the directories of compiled classes. -/
structure Locates (s : Settings) (packages : List Text) (roots : List Path) : Prop where
  chooses : Chooses readers t r s packages
  nonempty : packages ≠ []
  roots : Ends (locateClasses readers t (r.root t) r.classesDirectory) (.ok roots)

/-- Whether all class files below some directories can be looked at. -/
def ClassesVisible (roots : List Path) : Prop := ∀ root ∈ roots, AllVisible t (FileTree.hasEnding ".class") root

theorem settles_lookForClasses (roots : List Path) : Settles (lookForClasses t roots) (ClassesVisible t roots) () := by
  unfold lookForClasses ClassesVisible
  induction roots with
  | nil => exact (Settles.ok ()).congr (by simp)
  | cons root roots ih =>
    exact ((Project.settles_lookBelow t _ root).bind ih).congr (by simp)

/-- What comes of a scan. -/
def resultOf (packages : List Text) (m : Measured) : AnalysisResult :=
  if m.scan.cancelled then { root := r.root t, packages, scan := m.scan }
  else
    { root := r.root t, packages, metrics := m.metrics, scan := m.scan, cycles := Adjacency.cycles m.graph.edges }

/-- How an analysis goes: it fails, or has a result at one of two stages. -/
inductive Course : Except Failure AnalysisResult → Prop where
  /-- It fails. -/
  | fails (f : Failure) : Course (.error f)
  /-- There is nothing to analyze. -/
  | nothing {s : Settings} : Chooses readers t r s [] → Course (.ok { root := r.root t })
  /-- The classes are scanned. -/
  | scanned {s : Settings} {packages : List Text} {roots : List Path} {m : Measured} :
    Locates readers t r s packages roots → IsMeasured packages m → Course (.ok (resultOf t r packages m))

variable {readers t r}

theorem Chooses.exists_course {s : Settings} {packages : List Text} (h : Chooses readers t r s packages)
    (hpackages : packages ≠ []) :
    ∃ outcome, Ends (analyzePackages readers t r s packages) outcome ∧ Course readers t r outcome := by
  unfold analyzePackages
  obtain ⟨located, hlocated, -⟩ := decides_locateClasses readers t (r.root t) r.classesDirectory
  cases located with
  | error f => exact ⟨_, hlocated.bind_error, .fails f⟩
  | ok roots =>
    obtain ⟨-, hlook⟩ | ⟨-, f, hlook, -⟩ := settles_lookForClasses t roots
    · obtain ⟨m, hm, hmeasured⟩ := exists_gives_measure t roots packages s r.askings
      refine ⟨_, hlocated.bind ((ends_say _ _).bind ?_), .scanned ⟨h, hpackages, hlocated⟩ hmeasured⟩
      rw [hlook]
      refine (ends_of _).bind ((ends_lift hm).bind ?_)
      unfold resultOf
      by_cases hcancelled : m.scan.cancelled = true
      · rw [if_pos hcancelled, if_pos hcancelled]
        exact .pure _
      · rw [if_neg hcancelled, if_neg hcancelled]
        exact (ends_say _ _).bind ((ends_say _ _).bind (.pure _))
    · refine ⟨_, hlocated.bind ((ends_say _ _).bind ?_), .fails f⟩
      rw [hlook]
      exact (ends_of _).bind_error

variable (readers) in
theorem Begins.exists_course (h : Begins t r) : ∃ outcome, Ends (do
      let settings ← r.chooseSettings readers t
      let packages ← choosePackages readers t (r.root t) r.packages settings
      if packages = [] then pure { root := r.root t } else analyzePackages readers t r settings packages) outcome ∧
    Course readers t r outcome := by
  obtain ⟨settled, hsettings, -⟩ := decides_chooseSettings readers t r
  cases settled with
  | error f => exact ⟨_, hsettings.bind_error, .fails f⟩
  | ok s =>
    obtain ⟨chosen, hchosen, -⟩ := decides_choosePackages readers t (r.root t) r.packages s
    cases chosen with
    | error f => exact ⟨_, hsettings.bind hchosen.bind_error, .fails f⟩
    | ok packages =>
      have hchooses : Chooses readers t r s packages := ⟨h, hsettings, hchosen⟩
      by_cases hpackages : packages = []
      · subst hpackages
        exact ⟨_, hsettings.bind (hchosen.bind (.pure _)), .nothing hchooses⟩
      · obtain ⟨outcome, hends, hcourse⟩ := hchooses.exists_course hpackages
        refine ⟨outcome, hsettings.bind (hchosen.bind ?_), hcourse⟩
        rwa [if_neg hpackages]

variable (readers t r)

/-- Every analysis takes a course, whatever the log holds. -/
theorem exists_course : ∃ outcome, Ends (run readers t r) outcome ∧ Course readers t r outcome := by
  unfold run
  cases hencodable : r.project.isEncodable with
  | false => exact ⟨_, (Ends.throw _).bind_error, .fails _⟩
  | true =>
    simp only [Bool.not_true, Bool.false_eq_true, if_false]
    obtain ⟨hvisible, hlook⟩ | ⟨-, f, hlook, -⟩ := Project.settles_hasDirectory t (r.root t)
    · rw [hlook]
      cases hshows : t.shows Entry.isDirectory (r.root t) with
      | false =>
        exact ⟨_, (ends_of _).bind (Ends.throw _).bind_error, .fails _⟩
      | true =>
        have hbegins : Begins t r := ⟨hencodable, FileTree.isDirectory_eq_ok.2 ⟨hvisible, hshows⟩⟩
        obtain ⟨outcome, hends, hcourse⟩ := hbegins.exists_course readers
        exact ⟨outcome, (ends_of _).bind hends, hcourse⟩
    · rw [hlook]
      exact ⟨_, (ends_of _).bind_error, .fails f⟩

end Coupling.Analysis
