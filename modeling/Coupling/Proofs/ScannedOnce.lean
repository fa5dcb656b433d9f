import Coupling.Proofs.Balance
import Coupling.Proofs.ReportedFailures
import Coupling.Proofs.TreeContents

/-!
# Class files that are scanned once

The modules of a project are told apart by the names that its files declare, as texts, and only then is each name read as a
path. Two names that are spelled differently may lead to one directory, such as `a` and `./a`, and a name may lead back to the
project itself. The classes of such a directory are listed and scanned once for every spelling, and counted as often. This is
told exactly here: the directories of compiled classes are all different just when the spellings of those that have classes
are, and no class file is scanned twice just when no directory with class files also lies in another one. Then the number of
classes of a package is the number of class files that hold one.
-/

namespace Coupling

open Attempt (Ends)
open Logged (Gives)

/-! ### Modules -/

namespace Project

variable {readers : Readers} {t : FileTree} {project : Path}

/-- The directory of the module of a name. -/
def moduleAt (project : Path) (name : Text) : Path := project / Path.ofText name

/-- Whether a module has compiled classes. -/
def HasClasses (t : FileTree) (module : Path) : Prop := (seenClasses? t module).isSome = true

/-- Modules with compiled classes are spelled in one way, and not as the project itself. -/
def SpelledOnce (readers : Readers) (t : FileTree) (project : Path) : Prop :=
  ∀ name ∈ usableNames readers t project, HasClasses t (moduleAt project name) → moduleAt project name ≠ project ∧
    ∀ name' ∈ usableNames readers t project, moduleAt project name' = moduleAt project name → name' = name

theorem div_of_relative {p q : Path} (h : q.isAbsolute = false) : p / q = p.append q.parts q.divided := by
  show (if q.isAbsolute = true then q else _) = _
  rw [if_neg (by simp [h])]

/-- The places of compiled classes are relative, and told apart by their last names. -/
theorem classesPlaces_spec : (∀ q ∈ classesPlaces, q.isAbsolute = false ∧ q.parts ≠ []) ∧
    ∀ q ∈ classesPlaces, ∀ q' ∈ classesPlaces, q.parts.getLast? = q'.parts.getLast? → q = q' := by
  decide

/-- Modules with the same directory of compiled classes are the same. -/
theorem eq_of_seenClasses? {m m' d : Path} (h : seenClasses? t m = some d) (h' : seenClasses? t m' = some d) : m = m' := by
  obtain ⟨hrelative, hlast⟩ := classesPlaces_spec
  obtain ⟨q, hq, rfl⟩ := List.mem_map.1 (List.mem_of_find?_eq_some h)
  obtain ⟨q', hq', heq⟩ := List.mem_map.1 (List.mem_of_find?_eq_some h')
  rw [div_of_relative (hrelative q hq).1, div_of_relative (hrelative q' hq').1] at heq
  have hslashes : m'.slashes = m.slashes := (congrArg Path.slashes heq :)
  have hparts : m'.parts ++ q'.parts = m.parts ++ q.parts := (congrArg Path.parts heq :)
  have hsame : q'.parts.getLast? = q.parts.getLast? := by
    have hends := congrArg List.getLast? hparts
    rwa [List.getLast?_append_of_ne_nil _ (hrelative q' hq').2, List.getLast?_append_of_ne_nil _ (hrelative q hq).2] at hends
  obtain rfl := hlast q' hq' q hq hsame
  have hfront := List.append_cancel_right hparts
  cases m
  cases m'
  simp_all

theorem distinct_iff {m m' : Path} :
    (∀ d, seenClasses? t m = some d → ∀ d', seenClasses? t m' = some d' → d ≠ d') ↔ (HasClasses t m → m ≠ m') := by
  constructor
  · rintro h hclasses rfl
    obtain ⟨d, hd⟩ := Option.isSome_iff_exists.1 hclasses
    exact h d hd d hd rfl
  · intro h d hd d' hd' heq
    subst heq
    exact h (Option.isSome_iff_exists.2 ⟨d, hd⟩) (eq_of_seenClasses? hd hd')

/-- The directories of compiled classes are different just when their modules are spelled once. -/
theorem nodup_usableDirectories : (usableDirectories readers t project).Nodup ↔ SpelledOnce readers t project := by
  have hnames {name : Text} : name ∈ (usableNames readers t project).eraseDups ↔ name ∈ usableNames readers t project :=
    List.mem_eraseDups
  have hdirectories : usableDirectories readers t project =
      (project :: (usableNames readers t project).eraseDups.map (moduleAt project)).filterMap (seenClasses? t) := rfl
  rw [hdirectories, List.Nodup, List.pairwise_filterMap]
  simp only [distinct_iff, List.pairwise_cons, List.pairwise_map, List.forall_mem_map, hnames]
  constructor
  · rintro ⟨hproject, hmodules⟩ name hname hclasses
    refine ⟨fun heq => hproject name hname (heq ▸ hclasses) heq.symm, fun name' hname' heq => ?_⟩
    by_contra hne
    have hsymm : Std.Symm fun a b : Text => HasClasses t (moduleAt project a) → moduleAt project a ≠ moduleAt project b :=
      ⟨fun a b h hb heq => h (heq ▸ hb) heq.symm⟩
    exact hmodules.forall (hnames.2 hname') (hnames.2 hname) hne (heq ▸ hclasses) heq
  · intro h
    refine ⟨fun name hname hclasses heq => ?_, ?_⟩
    · exact (h name hname (heq ▸ hclasses)).1 heq.symm
    · refine (isFirsts_eraseDups _).nodup.pairwise_of_forall_ne fun name hname name' hname' hne hclasses heq => ?_
      exact hne ((h name (hnames.1 hname) hclasses).2 name' (hnames.1 hname') heq.symm).symm

end Project

/-! ### Class files -/

namespace Scan

variable {t : FileTree}

/-- Neither of two directories lies in the other, unless it has no class files. -/
def Apart (t : FileTree) (root root' : Path) : Prop :=
  (root.Inside root' → classFiles t root = []) ∧ (root'.Inside root → classFiles t root' = [])

theorem disjoint_classFiles_iff (h : t.IsProper) {root root' : Path} :
    List.Disjoint (classFiles t root) (classFiles t root') ↔ Apart t root root' := by
  constructor
  · intro hdisjoint
    refine ⟨fun hinside => List.eq_nil_iff_forall_not_mem.2 fun file hfile => ?_,
      fun hinside => List.eq_nil_iff_forall_not_mem.2 fun file hfile => ?_⟩
    · exact hdisjoint hfile (classFiles_subset hinside hfile)
    · exact hdisjoint (classFiles_subset hinside hfile) hfile
  · rintro ⟨hleft, hright⟩ file hfile hfile'
    rcases inside_of_mem_classFiles h hfile hfile' with hinside | hinside
    · rw [hleft hinside] at hfile
      exact List.not_mem_nil hfile
    · rw [hright hinside] at hfile'
      exact List.not_mem_nil hfile'

/-- No class file is listed twice just when the directories lie apart. -/
theorem nodup_flatMap_classFiles (h : t.IsProper) (roots : List Path) :
    (roots.flatMap (classFiles t)).Nodup ↔ roots.Pairwise (Apart t) := by
  rw [List.nodup_flatMap, and_iff_right fun root _ => nodup_classFiles h root]
  exact List.Pairwise.iff fun root root' => disjoint_classFiles_iff h

/-! ### Counting classes -/

/-- Whether a file holds a class of a package. -/
def holds (read : ReadFile) (package : Text) (file : Path) : Bool :=
  match outcome read file with
  | .ok c => c.package = package
  | .error _ => false

theorem holds_of_outcome {read : ReadFile} {file : Path} {bytes : List UInt8} {c : ClassSummary} {package : Text}
    (hread : read file = .ok bytes) (houtcome : (ClassFile.decode bytes).outcome = .ok c) (hpackage : c.package = package) :
    holds read package file = true := by
  have h : outcome read file = .ok c := by
    unfold outcome
    rw [hread]
    dsimp only
    rw [houtcome]
    rfl
  rw [holds, h]
  exact decide_eq_true hpackage

theorem countP_classes (read : ReadFile) {targets : List Text} {package : Text} (h : package ∈ targets) (files : List Path) :
    (classes read targets files).countP (fun c => c.package = package) = files.countP (holds read package) := by
  rw [classes, List.countP_filterMap]
  refine List.countP_congr fun file _ => ?_
  unfold class? holds
  cases outcome read file with
  | error f => simp
  | ok c =>
    dsimp only
    by_cases hc : c.package = package
    · simp [hc, h]
    · split
      · simp [hc]
      · simp [hc]

end Scan

namespace Analysis

variable {t : FileTree} {roots : List Path} {packages : List Text} {s : Settings} {askings : Option Nat} {m : Measured}

/-- A scan that is not called off takes in all files. -/
theorem takenIn_eq {o : Scan.Options} {files : List Path} (h : (Scan.reach o files.length).2 = false) :
    takenIn o files = files := by
  unfold takenIn
  refine List.take_of_length_le ?_
  unfold Scan.reach at h ⊢
  generalize o.askings = asked at h ⊢
  cases asked with
  | none => exact le_rfl
  | some n =>
    dsimp only at h ⊢
    split at h
    · next hworkers =>
      rw [if_pos hworkers]
      have hle : ¬ n < files.length := of_decide_eq_false h
      simp only [le_min_iff]
      omega
    · next hworkers =>
      rw [if_neg hworkers]
      have hle : ¬ n ≤ 2 * files.length := of_decide_eq_false h
      simp only [le_min_iff]
      omega

theorem scanned_of_measure (hm : Gives (measure t roots packages s askings) m) (hpackages : packages ≠ [])
    (hcancelled : m.scan.cancelled = false) : m.scan.scanned = (roots.flatMap (Scan.classFiles t)).length := by
  obtain ⟨m', hm', hscanned⟩ := exists_gives_scanned t roots hpackages s askings
  obtain rfl := hm.unique hm'
  rw [hscanned.scanned, takenIn_eq (hscanned.cancelled.symm.trans hcancelled)]

/-- A package has as many classes as are found in the class files, taken as often as they are listed. -/
theorem total_of_measure (hm : Gives (measure t roots packages s askings) m) {x : PackageMetrics} (hx : x ∈ m.metrics) :
    x.total = (roots.flatMap (Scan.classFiles t)).countP (Scan.holds t.read x.package) := by
  by_cases hpackages : packages = []
  · have hnone : Gives (measure t roots packages s askings) { graph := { restricted := s.restrictToTargets } } := by
      unfold measure
      rw [if_pos hpackages]
      exact .pure _
    rw [hm.unique hnone] at hx
    exact absurd hx List.not_mem_nil
  · obtain ⟨m', hm', hscanned⟩ := exists_gives_scanned t roots hpackages s askings
    obtain rfl := hm.unique hm'
    cases hcancelled : m.scan.cancelled with
    | true =>
      rw [hscanned.metrics, hcancelled] at hx
      exact absurd hx List.not_mem_nil
    | false =>
      have haccounts := Scan.accounts_run t.read (scanOptions packages s askings) s.restrictToTargets
        (roots.flatMap (Scan.classFiles t))
      rw [hscanned.metrics, hcancelled, hscanned.graph, takenIn_eq (hscanned.cancelled.symm.trans hcancelled)] at hx
      obtain ⟨package, hpackage, rfl⟩ := List.mem_map.1 hx
      exact (haccounts.total package).trans (Scan.countP_classes t.read (List.mem_eraseDups.1 hpackage) _)

/-- The class files below some directories that hold a class of a package. -/
def classFilesOf (t : FileTree) (roots : List Path) (package : Text) : Set Path :=
  {file | (∃ root ∈ roots, file ∈ Scan.classFiles t root) ∧ Scan.holds t.read package file = true}

/-- Below directories that lie apart, the classes of a package are counted by their files. -/
theorem total_eq_encard (h : t.IsProper) (hapart : roots.Pairwise (Scan.Apart t))
    (hm : Gives (measure t roots packages s askings) m) {x : PackageMetrics} (hx : x ∈ m.metrics) :
    (x.total : ℕ∞) = (classFilesOf t roots x.package).encard := by
  rw [total_of_measure hm hx, List.countP_eq_length_filter]
  refine (encard_of_nodup (((Scan.nodup_flatMap_classFiles h roots).2 hapart).filter _) fun file => ?_).symm
  simp [classFilesOf]

end Analysis

/-! ### Projects -/

/-- How often class files are scanned, in a proper tree where the directories of compiled classes are found. The directories
are all different exactly if each module that has classes is spelled in one way, and none is the project itself. No class file
is listed twice exactly if the directories lie apart. A scan of them that is not called off takes in as many files as are
listed, and a package has as many classes as the listed files hold, each counted as often as it is listed; so if the
directories lie apart, it has as many classes as there are class files with a class of the package. -/
theorem class_files_once {readers : Readers} {t : FileTree} (htree : t.IsProper) {project : Path} {directories : List Path}
    (hfound : Ends (Project.classesDirectories readers t project) (.ok directories)) :
    (directories.Nodup ↔ Project.SpelledOnce readers t project) ∧
    ((directories.flatMap (Scan.classFiles t)).Nodup ↔ directories.Pairwise (Scan.Apart t)) ∧
    ∀ packages s askings m, Gives (Analysis.measure t directories packages s askings) m →
      (packages ≠ [] → m.scan.cancelled = false →
        m.scan.scanned = (directories.flatMap (Scan.classFiles t)).length) ∧
      ∀ x ∈ m.metrics,
        x.total = (directories.flatMap (Scan.classFiles t)).countP (Scan.holds t.read x.package) ∧
        (directories.Pairwise (Scan.Apart t) →
          (x.total : ℕ∞) = (Analysis.classFilesOf t directories x.package).encard) := by
  refine ⟨?_, Scan.nodup_flatMap_classFiles htree directories, fun packages s askings m hm => ⟨?_, fun x hx => ⟨?_, ?_⟩⟩⟩
  · obtain ⟨-, rfl⟩ := (Project.yields_classesDirectories readers t project).eq_of_ends hfound
    exact Project.nodup_usableDirectories
  · exact Analysis.scanned_of_measure hm
  · exact Analysis.total_of_measure hm hx
  · exact fun hapart => Analysis.total_eq_encard htree hapart hm hx

/-- A project with a class file in the directory `a`, and a description of its modules. -/
def describedProject (description : String) : FileTree :=
  { entries := [("p", .directory [("pom.xml", .file (Utf8.encode description)),
      ("a", .directory [("target", .directory [("classes", .directory [("A.class", .file ClassFile.sampleClass.encode)])])])])] }

/-- The description of a project with one module. -/
def plainDescription : String := "<project><modules><module>a</module></modules></project>"

/-- A description that spells one directory in two ways. -/
def doubledDescription : String := "<project><modules><module>a</module><module>./a</module></modules></project>"

/-- The names that lead to the entries of such a project. -/
def describedPlaces : List (List Text) := [["p"], ["p", "pom.xml"], ["p", "a"], ["p", "a", "target"],
  ["p", "a", "target", "classes"], ["p", "a", "target", "classes", "A.class"]]

theorem isProper_describedProject (description : String) : (describedProject description).IsProper := by
  have hnames : (contentsOf (describedProject description).entries).map Prod.fst = describedPlaces := rfl
  have hdistinct : describedPlaces.Pairwise (· ≠ ·) := by decide
  have hdownward : ∀ names ∈ describedPlaces, Text.ofString ".." ∉ names := by decide
  rw [← hnames] at hdistinct hdownward
  exact ⟨List.pairwise_map.1 hdistinct, fun x hx => hdownward x.1 (List.mem_map_of_mem hx)⟩

/-- The class file of such a project. -/
def describedFile : Path := "p/a/target/classes/A.class"

theorem classFiles_describedProject (description : String) :
    Scan.classFiles (describedProject description) "p/a/target/classes" = [describedFile] := by
  have hfound : (describedProject description).withEnding ".class" "p/a/target/classes" =
      [(describedFile, Entry.file ClassFile.sampleClass.encode)].mergeSort fun a b => a.1.le b.1 := rfl
  rw [Scan.classFiles, hfound, List.mergeSort_singleton]
  rfl

theorem holds_describedProject (description : String) :
    Scan.holds (describedProject description).read "a" describedFile = true := by
  have houtcome := ClassFile.outcome_encode_append ClassFile.sampleClass_wellFormed ClassFile.sampleClass_hasClass []
  rw [List.append_nil] at houtcome
  have hread : (describedProject description).read describedFile = .ok ClassFile.sampleClass.encode := rfl
  exact Scan.holds_of_outcome hread houtcome (by decide)

/-- The directory of its compiled classes. -/
def describedClasses : Path := "p/a/target/classes"

theorem class_files_once_plainDescription :
    (describedProject plainDescription).IsProper ∧
    Ends (Project.classesDirectories .standard (describedProject plainDescription) "p") (.ok [describedClasses]) ∧
    Project.SpelledOnce .standard (describedProject plainDescription) "p" ∧
    ∀ s askings m, Gives (Analysis.measure (describedProject plainDescription) [describedClasses] ["a"] s askings) m →
      ∀ x ∈ m.metrics, (x.total : ℕ∞) =
        (Analysis.classFilesOf (describedProject plainDescription) [describedClasses] x.package).encard := by
  have htree := isProper_describedProject plainDescription
  have hfound := (Project.yields_classesDirectories .standard (describedProject plainDescription) "p").ends_of_run
    (r := .ok [describedClasses]) (by decide +kernel)
  obtain ⟨hnames, -, hmeasure⟩ := class_files_once htree hfound
  refine ⟨htree, hfound, hnames.1 (List.nodup_singleton _), fun s askings m hm x hx => ?_⟩
  exact ((hmeasure ["a"] s askings m hm).2 x hx).2 (List.pairwise_singleton _ _)

/-- One directory that is spelled in two ways is found twice, and its one class is counted twice. -/
theorem doubledDescription_counted_twice :
    Ends (Project.classesDirectories .standard (describedProject doubledDescription) "p") (.ok [describedClasses, describedClasses]) ∧
    ∃ m, Gives (Analysis.measure (describedProject doubledDescription) [describedClasses, describedClasses] ["a"] {} none) m ∧
      m.scan.scanned = 2 ∧ ∃ x ∈ m.metrics, x.package = "a" ∧ x.total = 2 := by
  have hfiles : [describedClasses, describedClasses].flatMap (Scan.classFiles (describedProject doubledDescription)) =
      [describedFile, describedFile] := by
    have hone : Scan.classFiles (describedProject doubledDescription) describedClasses = [describedFile] :=
      classFiles_describedProject doubledDescription
    simp [hone]
  obtain ⟨m, hm, hscanned⟩ := Analysis.exists_gives_scanned (describedProject doubledDescription)
    [describedClasses, describedClasses] (List.cons_ne_nil (Text.ofString "a") []) {} none
  have hcancelled : m.scan.cancelled = false := hscanned.cancelled
  refine ⟨(Project.yields_classesDirectories _ _ _).ends_of_run (by decide +kernel), m, hm, ?_, ?_⟩
  · rw [Analysis.scanned_of_measure hm (List.cons_ne_nil _ _) hcancelled, hfiles]
    rfl
  · have hx : Metrics.ofPackage Binary64.round m.graph "a" ∈ m.metrics := by
      rw [hscanned.metrics, hcancelled]
      exact List.mem_singleton.2 rfl
    refine ⟨_, hx, rfl, ?_⟩
    rw [Analysis.total_of_measure hm hx, hfiles]
    show [describedFile, describedFile].countP (Scan.holds (describedProject doubledDescription).read "a") = 2
    simp [holds_describedProject]

end Coupling
