import Coupling.Proofs.Course
import Coupling.Proofs.Segments
import Coupling.Proofs.TreeContents

/-!
# Packages right below another

The packages to analyze are found among the directories below the sources. Each directory stands for the package of the
names that lead to it, and two tests on texts tell whether that lies right below the main package: how the text begins, and
how many segments it has. Together they say that one more segment follows the main package. As long as no name of a
directory holds a dot, the segments are the names of directories, and the packages found are exactly those of the
directories in the directory of the main package.
-/

namespace Coupling

open Logged (Gives)

/-! ### Directories of a tree -/

namespace Directory

/-- Names that lead from a directory to one below it. No names lead to the directory itself. -/
inductive Leads (root : Directory) : List Text → Directory → Prop where
  /-- Without names one stays. -/
  | stay : Leads root [] root
  /-- One more name leads to a directory in the one reached so far. -/
  | enter {names : List Text} {outer inner : Directory} {name : Text} :
    Leads root names outer → (name, .directory inner) ∈ outer → Leads root (names ++ [name]) inner

variable {root inner : Directory} {name : Text} {names : List Text}

theorem leads_concat_iff :
    Leads root (names ++ [name]) inner ↔ ∃ outer, Leads root names outer ∧ (name, .directory inner) ∈ outer := by
  constructor
  · intro h
    generalize hmore : names ++ [name] = more at h
    cases h with
    | stay => simp at hmore
    | enter houter hmem =>
      obtain ⟨rfl, hname⟩ := List.append_inj' hmore rfl
      obtain rfl := List.singleton_inj.1 hname
      exact ⟨_, houter, hmem⟩
  · rintro ⟨outer, houter, hmem⟩
    exact .enter houter hmem

theorem leads_nil_iff : Leads root [] inner ↔ inner = root := by
  constructor
  · intro h
    generalize hnone : ([] : List Text) = none at h
    cases h with
    | stay => rfl
    | enter _ _ => simp at hnone
  · rintro rfl
    exact .stay

theorem leads_cons_iff :
    Leads root (name :: names) inner ↔ ∃ next, (name, .directory next) ∈ root ∧ Leads next names inner := by
  constructor
  · intro h
    generalize hmore : name :: names = more at h
    induction h generalizing names with
    | stay => cases hmore
    | @enter front outer inner last houter hmem ih =>
      cases front with
      | nil =>
        obtain ⟨rfl, rfl⟩ := List.cons.inj hmore
        obtain rfl := leads_nil_iff.1 houter
        exact ⟨_, hmem, .stay⟩
      | cons first front =>
        obtain ⟨rfl, rfl⟩ := List.cons.inj hmore
        obtain ⟨next, hnext, hfront⟩ := ih rfl
        exact ⟨next, hnext, .enter hfront hmem⟩
  · rintro ⟨next, hnext, h⟩
    induction h with
    | stay => exact .enter .stay hnext
    | enter _ hmem ih => exact .enter ih hmem

end Directory

/-- What is in a directory is one of its entries, or in one of them. -/
theorem mem_contentsOf {entries : Directory} {names : List Text} {e : Entry} : (names, e) ∈ contentsOf entries ↔
    ∃ first ∈ entries, names = [first.1] ∧ e = first.2 ∨ ∃ more, names = first.1 :: more ∧ (more, e) ∈ first.2.contents := by
  induction entries with
  | nil => simp [contentsOf]
  | cons first rest ih =>
    rw [contentsOf, List.mem_append, ih, List.mem_cons, List.mem_map, Prod.mk.injEq]
    simp only [List.mem_cons, exists_eq_or_imp, Prod.exists, Prod.mk.injEq]
    grind

/-- The directories in a directory are those that names lead to. -/
theorem directory_mem_contentsOf {root inner : Directory} {names : List Text} :
    (names, Entry.directory inner) ∈ contentsOf root ↔ names ≠ [] ∧ root.Leads names inner := by
  induction names generalizing root with
  | nil => simp [mem_contentsOf]
  | cons name names ih =>
    rw [mem_contentsOf, Directory.leads_cons_iff]
    constructor
    · rintro ⟨⟨first, e⟩, hfirst, ⟨hnames, rfl⟩ | ⟨more, hnames, hmore⟩⟩
      · obtain ⟨rfl, rfl⟩ := List.cons.inj hnames
        exact ⟨List.cons_ne_nil _ _, inner, hfirst, .stay⟩
      · obtain ⟨rfl, rfl⟩ := List.cons.inj hnames
        cases e with
        | file bytes => exact absurd hmore List.not_mem_nil
        | directory next => exact ⟨List.cons_ne_nil _ _, next, hfirst, (ih.1 hmore).2⟩
    · rintro ⟨-, next, hnext, hleads⟩
      refine ⟨_, hnext, ?_⟩
      cases names with
      | nil =>
        obtain rfl := Directory.leads_nil_iff.1 hleads
        exact .inl ⟨rfl, rfl⟩
      | cons second names => exact .inr ⟨_, rfl, ih.2 ⟨List.cons_ne_nil _ _, hleads⟩⟩

/-- The directory that names lead to from a place in a tree. Without names it is the place itself. -/
def FileTree.Leads (t : FileTree) (place : Path) (names : List Text) (d : Directory) : Prop :=
  ∃ root, t.entry place = .ok (.directory root) ∧ Directory.Leads root names d

theorem FileTree.directory_mem_below {t : FileTree} {place : Path} {names : List Text} {inner : Directory} :
    (names, Entry.directory inner) ∈ t.below place ↔ names ≠ [] ∧ t.Leads place names inner := by
  rw [mem_below]
  constructor
  · rintro ⟨e, he, hmem⟩
    cases e with
    | file bytes => exact absurd hmem List.not_mem_nil
    | directory root =>
      obtain ⟨hne, hleads⟩ := directory_mem_contentsOf.1 hmem
      exact ⟨hne, root, he, hleads⟩
  · rintro ⟨hne, root, hroot, hleads⟩
    exact ⟨_, hroot, directory_mem_contentsOf.2 ⟨hne, hleads⟩⟩

/-! ### One more segment -/

namespace Project

/-- The package of a segment in another one. In the package without a name, the segment is all. -/
def subpackage (main s : Text) : Text := if main = [] then s else main ++ "." ++ s

/-- The names of the directories that lead to a package. -/
def packageNames (main : Text) : List Text := if main = [] then [] else Text.split ('.' : CodePoint) main

theorem split_dotted (main s : Text) : Text.split ('.' : CodePoint) (main ++ "." ++ s) =
    Text.split ('.' : CodePoint) main ++ Text.split ('.' : CodePoint) s := by
  rw [List.append_assoc]
  exact Text.split_append_sep _ main s

/-- A package lies right below another if one more segment follows. -/
theorem isRightBelow_iff {main package : Text} :
    isRightBelow main package = true ↔ ∃ s, ('.' : CodePoint) ∉ s ∧ package = subpackage main s := by
  unfold isRightBelow subpackage
  dsimp only
  rw [Bool.and_eq_true, List.isPrefixOf_iff_prefix, beq_iff_eq]
  by_cases hmain : main = []
  · simp [hmain, Text.length_split_eq_one]
  · simp only [if_neg hmain]
    constructor
    · rintro ⟨⟨s, rfl⟩, hlength⟩
      rw [split_dotted, List.length_append] at hlength
      exact ⟨s, (Text.length_split_eq_one _).1 (by omega), rfl⟩
    · rintro ⟨s, hs, rfl⟩
      rw [split_dotted, List.length_append, (Text.length_split_eq_one _).2 hs]
      exact ⟨List.prefix_append _ _, rfl⟩

/-- The package of the directory of a name in the directory of a package. -/
theorem join_packageNames (main s : Text) : Text.join "." (packageNames main ++ [s]) = subpackage main s := by
  unfold packageNames subpackage
  split
  · exact List.intercalate_singleton
  · next hmain =>
    have hjoin := Text.intercalate_append [('.' : CodePoint)] (Text.split_ne_nil ('.' : CodePoint) main)
      (List.cons_ne_nil s [])
    rw [Text.intercalate_split, List.intercalate_singleton] at hjoin
    exact hjoin

/-- The segments of a package in another one, as names of directories. -/
theorem split_subpackage (main : Text) {s : Text} (hs : ('.' : CodePoint) ∉ s) :
    Text.split ('.' : CodePoint) (subpackage main s) = packageNames main ++ [s] := by
  unfold subpackage packageNames
  split
  · exact Text.split_of_not_mem _ hs
  · rw [split_dotted, Text.split_of_not_mem _ hs]

variable {t : FileTree} {sources : Path} {main p : Text}

theorem mem_directoryPackages : p ∈ directoryPackages t sources ↔
    ∃ names inner, names ≠ [] ∧ t.Leads sources names inner ∧ p = Text.join "." names := by
  unfold directoryPackages
  rw [List.mem_filterMap]
  constructor
  · rintro ⟨⟨names, e⟩, hmem, hp⟩
    cases e with
    | file bytes => cases hp
    | directory inner =>
      obtain ⟨hne, hleads⟩ := FileTree.directory_mem_below.1 hmem
      exact ⟨names, inner, hne, hleads, (Option.some.inj hp).symm⟩
  · rintro ⟨names, inner, hne, hleads, rfl⟩
    exact ⟨_, FileTree.directory_mem_below.2 ⟨hne, hleads⟩, rfl⟩

theorem mem_subpackages : p ∈ subpackages t sources main ↔
    (∃ names inner, names ≠ [] ∧ t.Leads sources names inner ∧ p = Text.join "." names) ∧
      ∃ s, ('.' : CodePoint) ∉ s ∧ p = subpackage main s := by
  rw [subpackages, SortedSet.mem_ofList, List.mem_filter, mem_directoryPackages, isRightBelow_iff]

/-- Without dots in the names of directories, the packages are those in the directory of the main package. -/
theorem mem_subpackages_of_plain
    (hplain : ∀ names inner, t.Leads sources names inner → ∀ name ∈ names, ('.' : CodePoint) ∉ name) :
    p ∈ subpackages t sources main ↔
      ∃ d s inner, t.Leads sources (packageNames main) d ∧ (s, Entry.directory inner) ∈ d ∧ p = subpackage main s := by
  rw [mem_subpackages]
  constructor
  · rintro ⟨⟨names, inner, hne, ⟨root, hroot, hleads⟩, hjoin⟩, s, hs, hp⟩
    -- The names are the segments of the package, of which the last one is new.
    have hnames : names = packageNames main ++ [s] := by
      have hsplit := Text.split_intercalate ('.' : CodePoint) (hplain names inner ⟨root, hroot, hleads⟩) hne
      have hp' : [('.' : CodePoint)].intercalate names = subpackage main s := hjoin.symm.trans hp
      rw [← hsplit, hp', split_subpackage main hs]
    rw [hnames] at hleads
    obtain ⟨outer, houter, hmem⟩ := Directory.leads_concat_iff.1 hleads
    exact ⟨outer, s, inner, ⟨root, hroot, houter⟩, hmem, hp⟩
  · rintro ⟨d, s, inner, ⟨root, hroot, hleads⟩, hmem, hp⟩
    have hinner : t.Leads sources (packageNames main ++ [s]) inner := ⟨root, hroot, .enter hleads hmem⟩
    refine ⟨⟨_, inner, by simp, hinner, hp.trans (join_packageNames main s).symm⟩, s, ?_, hp⟩
    exact hplain _ _ hinner s (by simp)

/-- What is found right below a package: the packages of directories that add one segment to it, in increasing order. If no
name of a directory holds a dot, these are the packages of the directories in the directory of the package. So the package
itself is not among them, nor are packages further below, nor packages that only begin with the same letters. -/
theorem subpackages_exact (t : FileTree) (sources : Path) (main : Text) :
    ∃ found, Gives (findSubpackages t sources main) found ∧ found.Pairwise (· < ·) ∧
      (∀ p, p ∈ found ↔ (∃ names inner, names ≠ [] ∧ t.Leads sources names inner ∧ p = Text.join "." names) ∧
        ∃ s, ('.' : CodePoint) ∉ s ∧ p = if main = [] then s else main ++ "." ++ s) ∧
      ((∀ names inner, t.Leads sources names inner → ∀ name ∈ names, ('.' : CodePoint) ∉ name) →
        ∀ p, p ∈ found ↔ ∃ d s inner, t.Leads sources (packageNames main) d ∧ (s, Entry.directory inner) ∈ d ∧
          p = if main = [] then s else main ++ "." ++ s) ∧
      (main ≠ [] → main ∉ found ∧ ∀ c rest, c ≠ ('.' : CodePoint) → main ++ c :: rest ∉ found) ∧
      ∀ s s', subpackage main s ++ "." ++ s' ∉ found := by
  refine ⟨_, gives_findSubpackages t sources main, (subpackages t sources main).increasing, fun p => mem_subpackages,
    fun hplain p => mem_subpackages_of_plain hplain, fun hmain => ⟨fun hmem => ?_, fun c rest hc hmem => ?_⟩,
    fun s s' hmem => ?_⟩
  · obtain ⟨-, s, -, heq⟩ := mem_subpackages.1 hmem
    have hlength := congrArg List.length heq
    simp [subpackage, hmain, Text.ofString] at hlength
  · obtain ⟨-, s, -, heq⟩ := mem_subpackages.1 hmem
    rw [subpackage, if_neg hmain, List.append_assoc] at heq
    exact hc (List.cons.inj (List.append_cancel_left heq)).1
  · obtain ⟨-, u, hu, heq⟩ := mem_subpackages.1 hmem
    unfold subpackage at heq
    have hdot : ('.' : CodePoint) ∈ Text.ofString "." := List.mem_singleton_self _
    split at heq
    · rw [← heq] at hu
      exact hu (by simp [hdot])
    · simp only [List.append_assoc] at heq
      rw [← List.append_cancel_left (List.append_cancel_left heq)] at hu
      exact hu (by simp [hdot])

end Project

end Coupling
