import Coupling.Analysis.Scan
import Mathlib.Data.List.Basic

/-!
# What lies below a directory

A directory that names lead to keeps what it holds, so everything below it is also below each directory on the way, with
more names in front. In a proper tree no two entries are reached by the same names, and no name means the way back; this is
so in all directories of the tree if it is so from the root. Class files are listed by their paths, and in a proper tree
none comes twice below one directory. Two directories share a class file only if one of them lies in the other.
-/

namespace Coupling

/-! ### Names that lead down -/

namespace Directory

variable {entries : Directory}

/-- What a directory holds under a name comes with everything below it. -/
theorem sublist_of_lookup {name : Text} {e : Entry} (h : entries.lookup name = some e) :
    (e.contents.map fun x => (name :: x.1, x.2)).Sublist (contentsOf entries) := by
  induction entries with
  | nil => cases h
  | cons first rest ih =>
    obtain ⟨n, old⟩ := first
    rw [contentsOf, List.cons_append]
    rw [List.lookup_cons] at h
    split at h
    · next heq =>
      obtain rfl := Option.some.inj h
      obtain rfl := eq_of_beq heq
      exact ((List.sublist_append_left _ _)).cons _
    · exact ((ih h).trans (List.sublist_append_right _ _)).cons _

/-- Everything below a place lies below the directories on the way. -/
theorem sublist_of_find? {place : List Text} {e : Entry} (h : find? entries place = some e) :
    (e.contents.map fun x => (place ++ x.1, x.2)).Sublist (contentsOf entries) := by
  induction place generalizing entries with
  | nil =>
    obtain rfl := Option.some.inj h
    simp [Entry.contents]
  | cons name place ih =>
    rw [find?] at h
    split at h
    · next inner hlookup =>
      have hinner := (ih h).map fun x => (name :: x.1, x.2)
      rw [List.map_map] at hinner
      exact hinner.trans (sublist_of_lookup hlookup)
    · next bytes hlookup =>
      split at h
      · obtain rfl := Option.some.inj h
        exact List.nil_sublist _
      · cases h
    · cases h

/-- A directory is reached through directories. -/
theorem find?_append {place rest : List Text} {inner : Directory} (h : find? entries (place ++ rest) = some (.directory inner)) :
    ∃ outer : Directory, find? entries place = some (.directory outer) ∧ outer.find? rest = some (.directory inner) := by
  induction place generalizing entries with
  | nil => exact ⟨entries, rfl, h⟩
  | cons name place ih =>
    rw [List.cons_append, find?] at h
    rw [find?]
    cases hlookup : List.lookup name entries with
    | none =>
      rw [hlookup] at h
      cases h
    | some e =>
      rw [hlookup] at h
      cases e with
      | directory next => exact ih h
      | file bytes =>
        dsimp only at h
        split at h
        · cases h
        · cases h

end Directory

/-! ### Paths that go on from another one -/

namespace Path

variable {p q : Path} {names : List Text}

theorem descend?_eq_some : p.descend? names = some q ↔ q.slashes = p.slashes ∧ q.parts = p.parts ++ names := by
  unfold descend?
  constructor
  · intro h
    split at h
    · cases h
      exact ⟨rfl, rfl⟩
    · cases h
  · intro ⟨hslashes, hparts⟩
    have hdivided : ∀ name ∈ names, ('/' : CodePoint) ∉ name := fun name hname =>
      q.divided name (hparts ▸ List.mem_append_right _ hname)
    rw [dif_pos hdivided, append]
    obtain ⟨slashes, parts, divided⟩ := q
    cases hslashes
    cases hparts
    rfl

theorem descend?_inj {names' : List Text} (h : p.descend? names = some q) (h' : p.descend? names' = some q) :
    names = names' :=
  List.append_cancel_left ((descend?_eq_some.1 h).2.symm.trans (descend?_eq_some.1 h').2)

theorem size_le_of_descend? (h : p.descend? names = some q) : p.size ≤ q.size := by
  obtain ⟨hslashes, hparts⟩ := descend?_eq_some.1 h
  have hle (parts : List Text) : partsSize parts ≤ partsSize (parts ++ names) := by
    induction parts with
    | nil => exact Nat.zero_le _
    | cons part parts ih => exact Nat.add_le_add_left ih _
  unfold size
  rw [hslashes, hparts]
  exact Nat.add_le_add_left (hle p.parts) _

/-- A path that goes on from another one, and never back. -/
def Inside (inner outer : Path) : Prop := ∃ rest, outer.descend? rest = some inner ∧ Text.ofString ".." ∉ rest

end Path

namespace FileTree

variable {t : FileTree}

theorem locateFrom_append {place names more : List Text} : t.locateFrom place (names ++ more) =
    (t.locateFrom place names >>= fun place' => t.locateFrom place' more) := by
  induction names generalizing place with
  | nil => rfl
  | cons name names ih =>
    rw [List.cons_append, locateFrom, locateFrom]
    split
    · split
      · exact ih
      · split
        · rfl
        · split
          · exact ih
          · rfl
    · rfl

/-- A name leads from a directory to the one above it, or to an entry that it has. -/
theorem locateFrom_cons_eq_ok {place names place' : List Text} {name : Text} :
    t.locateFrom place (name :: names) = .ok place' ↔ ∃ inner, t.entries.find? place = some (.directory inner) ∧
      (name = Text.ofString ".." ∧ t.locateFrom place.dropLast names = .ok place' ∨
        name ≠ Text.ofString ".." ∧ Path.nameSize name ≤ nameLimit ∧ (inner.lookup name).isSome = true ∧
          t.locateFrom (place ++ [name]) names = .ok place') := by
  rw [locateFrom]
  cases t.entries.find? place with
  | none => simp
  | some e =>
    cases e with
    | file bytes => simp
    | directory inner =>
      simp only [Option.some.injEq, Entry.directory.injEq, exists_eq_left']
      generalize (inner.lookup name).isSome = there
      by_cases hup : name = Text.ofString ".."
      · simp [hup]
      · by_cases hlong : nameLimit < Path.nameSize name
        · simp [hup, hlong, Nat.not_le_of_lt hlong]
        · cases there with
          | false => simp [hup, hlong]
          | true => simp [hup, hlong, Nat.le_of_not_lt hlong]

theorem locate_eq_ok {p : Path} {place : List Text} : t.locate p = .ok place ↔ p.isEncodable = true ∧ p.size ≤ pathLimit ∧
    t.locateFrom (if p.isAbsolute then [] else t.working.parts) p.parts = .ok place := by
  unfold locate
  cases p.isEncodable with
  | false => simp
  | true =>
    by_cases hsize : pathLimit < p.size
    · simp [hsize, Nat.not_le_of_lt hsize]
    · simp [hsize, Nat.le_of_not_lt hsize]

/-- A path that goes on from another one is found from there. -/
theorem locate_of_descend? {p q : Path} {rest place : List Text} (h : p.descend? rest = some q) (hq : t.locate q = .ok place) :
    ∃ above, t.locate p = .ok above ∧ t.locateFrom above rest = .ok place := by
  obtain ⟨hslashes, hparts⟩ := Path.descend?_eq_some.1 h
  obtain ⟨hencodable, hsize, hlocate⟩ := locate_eq_ok.1 hq
  rw [hparts, locateFrom_append, Path.isAbsolute, hslashes] at hlocate
  cases habove : t.locateFrom (if p.isAbsolute then [] else t.working.parts) p.parts with
  | error f =>
    rw [Path.isAbsolute] at habove
    rw [habove] at hlocate
    cases hlocate
  | ok above =>
    rw [Path.isAbsolute] at habove
    rw [habove] at hlocate
    refine ⟨above, locate_eq_ok.2 ⟨?_, ?_, habove⟩, hlocate⟩
    · unfold Path.isEncodable at hencodable ⊢
      rw [hparts, List.all_append, Bool.and_eq_true] at hencodable
      exact hencodable.1
    · exact Nat.le_trans (Path.size_le_of_descend? h) hsize

/-- Without a way back, names lead further down. -/
theorem eq_append_of_locateFrom {place names place' : List Text} (hup : Text.ofString ".." ∉ names)
    (h : t.locateFrom place names = .ok place') : place' = place ++ names := by
  induction names generalizing place with
  | nil =>
    cases h
    simp
  | cons name names ih =>
    obtain ⟨hname, hnames⟩ := List.ne_and_not_mem_of_not_mem_cons hup
    obtain ⟨inner, -, ⟨hback, -⟩ | ⟨-, -, -, hrest⟩⟩ := locateFrom_cons_eq_ok.1 h
    · exact absurd hback.symm hname
    · rw [ih hnames hrest, List.append_assoc, List.singleton_append]

theorem entry_eq_ok {p : Path} {e : Entry} :
    t.entry p = .ok e ↔ ∃ place, t.locate p = .ok place ∧ t.entries.find? place = some e := by
  unfold entry
  cases t.locate p with
  | error f => simp [bind, Except.bind]
  | ok place =>
    simp only [bind, Except.bind, Except.ok.injEq, exists_eq_left']
    split
    · next h => simp [h]
    · next h => simp [h]

theorem mem_below {p : Path} {x : List Text × Entry} : x ∈ t.below p ↔ ∃ e, t.entry p = .ok e ∧ x ∈ e.contents := by
  unfold below
  cases t.entry p with
  | error f => simp
  | ok e => simp

/-! ### Proper trees -/

/-- Names lead to one entry at most, and none of them means the way back. -/
structure IsProper (t : FileTree) : Prop where
  distinct : (contentsOf t.entries).Pairwise fun x y => x.1 ≠ y.1
  downward : ∀ x ∈ contentsOf t.entries, Text.ofString ".." ∉ x.1

theorem IsProper.distinct_below (h : t.IsProper) (p : Path) : (t.below p).Pairwise fun x y => x.1 ≠ y.1 := by
  unfold below
  split
  · next e he =>
    obtain ⟨place, -, hfind⟩ := entry_eq_ok.1 he
    have hpairwise := h.distinct.sublist (Directory.sublist_of_find? hfind)
    rw [List.pairwise_map] at hpairwise
    refine hpairwise.imp fun {x y} hne heq => hne ?_
    rw [heq]
  · exact .nil

theorem IsProper.downward_below (h : t.IsProper) {p : Path} {x : List Text × Entry} (hx : x ∈ t.below p) :
    Text.ofString ".." ∉ x.1 := by
  obtain ⟨e, he, hmem⟩ := mem_below.1 hx
  obtain ⟨place, -, hfind⟩ := entry_eq_ok.1 he
  have hroot := (Directory.sublist_of_find? hfind).subset (List.mem_map_of_mem hmem)
  have hup := h.downward _ hroot
  simp only [List.mem_append, not_or] at hup
  exact hup.2

end FileTree

/-- What is below a path is also below the paths on the way. -/
theorem FileTree.mem_below_of_descend? {t : FileTree} {inner outer : Path} {rest : List Text}
    (hinner : outer.descend? rest = some inner) (hup : Text.ofString ".." ∉ rest) {x : List Text × Entry}
    (h : x ∈ t.below inner) : (rest ++ x.1, x.2) ∈ t.below outer := by
  obtain ⟨e, he, hx⟩ := mem_below.1 h
  obtain ⟨place, hlocate, hfind⟩ := entry_eq_ok.1 he
  cases e with
  | file bytes => exact absurd hx List.not_mem_nil
  | directory entries =>
    obtain ⟨above, houter, hrest⟩ := locate_of_descend? hinner hlocate
    obtain rfl := eq_append_of_locateFrom hup hrest
    obtain ⟨between, habove, hbetween⟩ := Directory.find?_append hfind
    have hmem : (rest ++ x.1, x.2) ∈ (Entry.directory entries).contents.map fun y => (rest ++ y.1, y.2) :=
      List.mem_map.2 ⟨x, hx, rfl⟩
    exact mem_below.2 ⟨_, entry_eq_ok.2 ⟨above, houter, habove⟩, (Directory.sublist_of_find? hbetween).subset hmem⟩

/-! ### Class files -/

namespace Scan

variable {t : FileTree}

theorem hasEnding_append {rest names : List Text} (h : FileTree.hasEnding ".class" names = true) :
    FileTree.hasEnding ".class" (rest ++ names) = true := by
  unfold FileTree.hasEnding at h ⊢
  cases names with
  | nil => exact absurd h (by decide)
  | cons name names => rwa [List.getLast?_append_of_ne_nil _ (List.cons_ne_nil name names)]

theorem mem_classFiles {root file : Path} : file ∈ classFiles t root ↔ ∃ names bytes, (names, Entry.file bytes) ∈ t.below root ∧
    FileTree.hasEnding ".class" names = true ∧ root.descend? names = some file := by
  unfold classFiles FileTree.withEnding
  simp only [List.mem_filterMap, List.mem_mergeSort, List.mem_filter, Option.map_eq_some_iff]
  constructor
  · rintro ⟨found, ⟨⟨names, e⟩, ⟨hmem, hname⟩, path, hpath, rfl⟩, hfile⟩
    cases e with
    | directory entries => cases hfile
    | file bytes =>
      obtain rfl := Option.some.inj hfile
      exact ⟨names, bytes, hmem, hname, hpath⟩
  · rintro ⟨names, bytes, hmem, hname, hpath⟩
    exact ⟨_, ⟨(names, .file bytes), ⟨hmem, hname⟩, file, hpath, rfl⟩, rfl⟩

theorem descend?_of_bind {root file : Path} {x : List Text × Entry} {path? : Path × Entry → Option Path}
    (hpath : ∀ p e, path? (p, e) = some file → p = file)
    (h : ((root.descend? x.1).map (·, x.2)).bind path? = some file) : root.descend? x.1 = some file := by
  obtain ⟨found, hfound, hfile⟩ := Option.bind_eq_some_iff.1 h
  obtain ⟨p, hp, rfl⟩ := Option.map_eq_some_iff.1 hfound
  rw [hp, hpath p x.2 hfile]

/-- No class file comes twice below one directory. -/
theorem nodup_classFiles (h : t.IsProper) (root : Path) : (classFiles t root).Nodup := by
  unfold classFiles FileTree.withEnding
  refine ((List.mergeSort_perm _ _).filterMap _).nodup_iff.2 ?_
  rw [List.filterMap_filterMap, List.Nodup, List.pairwise_filterMap]
  refine ((h.distinct_below root).sublist List.filter_sublist).imp fun {x y} hne file hfile file' hfile' heq => ?_
  subst heq
  refine hne (Path.descend?_inj (descend?_of_bind (fun p e he => ?_) hfile) (descend?_of_bind (fun p e he => ?_) hfile'))
  all_goals
    cases e with
    | directory entries => cases he
    | file bytes => exact Option.some.inj he

/-- The class files below a directory are also below the directories on the way. -/
theorem classFiles_subset {inner outer : Path} (h : inner.Inside outer) : classFiles t inner ⊆ classFiles t outer := by
  intro file hfile
  obtain ⟨names, bytes, hmem, hname, hpath⟩ := mem_classFiles.1 hfile
  obtain ⟨rest, hrest, hup⟩ := h
  obtain ⟨hslashes, hparts⟩ := Path.descend?_eq_some.1 hrest
  obtain ⟨hslashes', hparts'⟩ := Path.descend?_eq_some.1 hpath
  refine mem_classFiles.2 ⟨rest ++ names, bytes, FileTree.mem_below_of_descend? hrest hup hmem, hasEnding_append hname, ?_⟩
  rw [Path.descend?_eq_some, hslashes', hslashes, hparts', hparts, List.append_assoc]
  exact ⟨rfl, rfl⟩

/-- Directories that share a class file lie in one another. -/
theorem inside_of_mem_classFiles (h : t.IsProper) {root root' file : Path} (hfile : file ∈ classFiles t root)
    (hfile' : file ∈ classFiles t root') : root.Inside root' ∨ root'.Inside root := by
  obtain ⟨names, bytes, hmem, -, hpath⟩ := mem_classFiles.1 hfile
  obtain ⟨names', bytes', hmem', -, hpath'⟩ := mem_classFiles.1 hfile'
  obtain ⟨hslashes, hparts⟩ := Path.descend?_eq_some.1 hpath
  obtain ⟨hslashes', hparts'⟩ := Path.descend?_eq_some.1 hpath'
  have hup := h.downward_below hmem
  have hup' := h.downward_below hmem'
  rcases List.append_eq_append_iff.1 (hparts.symm.trans hparts') with ⟨rest, hrest, hnames⟩ | ⟨rest, hrest, hnames⟩
  · refine .inr ⟨rest, Path.descend?_eq_some.2 ⟨hslashes'.symm.trans hslashes, hrest⟩, fun hmem => hup ?_⟩
    rw [hnames]
    exact List.mem_append_left _ hmem
  · refine .inl ⟨rest, Path.descend?_eq_some.2 ⟨hslashes.symm.trans hslashes', hrest⟩, fun hmem => hup' ?_⟩
    rw [hnames]
    exact List.mem_append_left _ hmem

end Scan

end Coupling
