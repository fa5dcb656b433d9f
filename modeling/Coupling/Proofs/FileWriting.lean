import Coupling.Command.Execute
import Coupling.Proofs.TreeContents

/-!
# Reading what was written

A file that was written can be read, with the bytes that were written. Writing a file changes no directory except that it may
get one more name, so the names that led to a place before still lead there. A page that can be written at all is written as
it is, unless it holds half of a surrogate pair: then its file is left empty.
-/

namespace Coupling

namespace Directory

variable {e : Entry}

theorem lookup_put_self (name : Text) (e : Entry) (entries : Directory) : (entries.put name e).lookup name = some e := by
  induction entries with
  | nil => simp [put]
  | cons first rest ih =>
    obtain ⟨n, old⟩ := first
    rw [put]
    split
    · next h => simp [h]
    · next h => rw [List.lookup_cons, beq_false_of_ne (Ne.symm h), ih]

theorem lookup_put_of_ne {entries : Directory} {name n : Text} (h : n ≠ name) : (entries.put name e).lookup n = entries.lookup n := by
  induction entries with
  | nil => simp [put, List.lookup_cons, beq_false_of_ne h]
  | cons first rest ih =>
    obtain ⟨n', old⟩ := first
    rw [put]
    split
    · next hname =>
      subst hname
      rw [List.lookup_cons, List.lookup_cons, beq_false_of_ne h]
    · rw [List.lookup_cons, List.lookup_cons, ih]

/-- Names lead on from a directory that they lead to. -/
theorem find?_append_of_directory {entries outer : Directory} {place : List Text}
    (h : entries.find? place = some (.directory outer)) (rest : List Text) :
    entries.find? (place ++ rest) = outer.find? rest := by
  induction place generalizing entries with
  | nil =>
    cases h
    rfl
  | cons name place ih =>
    rw [find?] at h
    rw [List.cons_append, find?]
    cases hlookup : List.lookup name entries with
    | none =>
      rw [hlookup] at h
      cases h
    | some e =>
      rw [hlookup] at h
      cases e with
      | directory inner => exact ih h
      | file bytes =>
        dsimp only at h
        split at h
        · cases h
        · cases h

theorem find?_dropLast {entries inner : Directory} {place : List Text} (h : entries.find? place = some (.directory inner)) :
    ∃ outer, entries.find? place.dropLast = some (.directory outer) := by
  by_cases hplace : place = []
  · subst hplace
    exact ⟨inner, h⟩
  · rw [← List.dropLast_append_getLast hplace] at h
    obtain ⟨outer, houter, -⟩ := find?_append h
    exact ⟨outer, houter⟩

theorem find?_singleton (entries : Directory) (name : Text) : entries.find? [name] = entries.lookup name := by
  rw [find?]
  cases List.lookup name entries with
  | none => rfl
  | some e =>
    cases e with
    | directory inner => rfl
    | file bytes => rfl

/-- Putting an entry at a place changes one entry of the directory. -/
theorem putAt_cons (e : Entry) (name : Text) (names : List Text) (entries : Directory) :
    ∃ e', entries.putAt e (name :: names) = entries.put name e' ∧ (names = [] → e' = e) ∧
      (names ≠ [] → ∃ d, e' = .directory (putAt e names d) ∧ ∀ d', entries.lookup name = some (.directory d') → d = d') := by
  cases names with
  | nil => exact ⟨e, rfl, fun _ => rfl, fun h => absurd rfl h⟩
  | cons next names =>
    refine ⟨_, rfl, fun h => absurd h (List.cons_ne_nil next names), fun _ => ⟨_, rfl, fun d' hd' => ?_⟩⟩
    rw [hd']

/-- What is put at a place is found there. -/
theorem find?_putAt_self (e : Entry) {place : List Text} (hplace : place ≠ []) (entries : Directory) :
    (entries.putAt e place).find? place = some e := by
  induction place generalizing entries with
  | nil => exact absurd rfl hplace
  | cons name names ih =>
    obtain ⟨e', hput, hlast, hinner⟩ := putAt_cons e name names entries
    rw [hput, find?, lookup_put_self]
    by_cases hnames : names = []
    · rw [hlast hnames, hnames]
      cases e with
      | file bytes => rfl
      | directory d => rfl
    · obtain ⟨d, rfl, -⟩ := hinner hnames
      exact ih hnames d

/-- A directory that has at least the names of another one. -/
def Covers (outer inner : Directory) : Prop := ∀ n, (inner.lookup n).isSome = true → (outer.lookup n).isSome = true

theorem covers_put (name : Text) (e : Entry) (entries : Directory) : Covers (entries.put name e) entries := by
  intro n h
  by_cases hn : n = name
  · subst hn
    rw [lookup_put_self]
    rfl
  · rwa [lookup_put_of_ne hn]

/-- A directory stays one, with its names, when something is put where no directory is. -/
theorem find?_putAt {entries inner : Directory} {place q : List Text} (hplace : ∀ d, entries.find? place ≠ some (.directory d))
    (hq : entries.find? q = some (.directory inner)) :
    ∃ outer, (entries.putAt e place).find? q = some (.directory outer) ∧ Covers outer inner := by
  induction place generalizing entries q with
  | nil => exact absurd rfl (hplace _)
  | cons name names ih =>
    obtain ⟨e', hput, -, hinner⟩ := putAt_cons e name names entries
    rw [hput]
    cases q with
    | nil =>
      cases hq
      exact ⟨_, rfl, covers_put name e' _⟩
    | cons n q =>
      rw [find?] at hq ⊢
      by_cases hn : n = name
      · subst hn
        rw [lookup_put_self]
        rw [find?] at hplace
        cases hlookup : List.lookup n entries with
        | none =>
          rw [hlookup] at hq
          cases hq
        | some old =>
          rw [hlookup] at hq hplace
          cases old with
          | file bytes =>
            dsimp only at hq
            split at hq
            · cases hq
            · cases hq
          | directory d =>
            have hnames : names ≠ [] := by
              rintro rfl
              exact hplace d rfl
            obtain ⟨d', rfl, hd'⟩ := hinner hnames
            obtain rfl := hd' d hlookup
            exact ih hplace hq
      · rw [lookup_put_of_ne hn]
        exact ⟨inner, hq, fun _ h => h⟩

end Directory

namespace FileTree

variable {t : FileTree} {bytes : List UInt8}

/-- Names that lead to a place still do after a file was put where no directory is. -/
theorem locateFrom_putAt {place : List Text} (hplace : ∀ d, t.entries.find? place ≠ some (.directory d))
    {start names reached : List Text} (h : t.locateFrom start names = .ok reached) :
    (t.putAt (.file bytes) place).locateFrom start names = .ok reached := by
  induction names generalizing start with
  | nil => exact h
  | cons name names ih =>
    obtain ⟨inner, hstart, hstep⟩ := locateFrom_cons_eq_ok.1 h
    obtain ⟨outer, houter, hcovers⟩ := Directory.find?_putAt (e := .file bytes) hplace hstart
    refine locateFrom_cons_eq_ok.2 ⟨outer, houter, ?_⟩
    rcases hstep with ⟨hup, hrest⟩ | ⟨hup, hshort, hthere, hrest⟩
    · exact .inl ⟨hup, ih hrest⟩
    · exact .inr ⟨hup, hshort, hcovers name hthere, ih hrest⟩

theorem locate_putAt {place : List Text} (hplace : ∀ d, t.entries.find? place ≠ some (.directory d)) {p : Path}
    {reached : List Text} (h : t.locate p = .ok reached) : (t.putAt (.file bytes) place).locate p = .ok reached := by
  obtain ⟨hencodable, hsize, hlocate⟩ := locate_eq_ok.1 h
  exact locate_eq_ok.2 ⟨hencodable, hsize, locateFrom_putAt hplace hlocate⟩

/-- A path that goes on from another one leads on from its place. -/
theorem locate_descend? {p q : Path} {front rest : List Text} (h : p.descend? rest = some q) (hencodable : q.isEncodable = true)
    (hsize : q.size ≤ pathLimit) (hp : t.locate p = .ok front) : t.locate q = t.locateFrom front rest := by
  obtain ⟨hslashes, hparts⟩ := Path.descend?_eq_some.1 h
  obtain ⟨-, -, hfront⟩ := locate_eq_ok.1 hp
  have habsolute : q.isAbsolute = p.isAbsolute := by
    unfold Path.isAbsolute
    rw [hslashes]
  have hshort : ¬pathLimit < q.size := Nat.not_lt_of_le hsize
  unfold locate
  rw [hencodable, if_neg hshort, hparts, locateFrom_append, habsolute, hfront]
  rfl

/-- A name under which there is nothing yet, in a directory that is there. -/
structure IsNew (t : FileTree) (front : List Text) (name : Text) : Prop where
  directory : ∃ inner, t.entries.find? front = some (.directory inner) ∧ inner.lookup name = none
  forward : name ≠ (".." : Text)
  short : Path.nameSize name ≤ nameLimit

/-- If nothing is found where a name leads, the name is new. -/
theorem isNew_of_find? {front : List Text} {name : Text}
    (h : (t.locateFrom front [name]).map t.entries.find? ∈ [.error .notFound, .ok none]) : t.IsNew front name := by
  rw [locateFrom] at h
  cases hfront : t.entries.find? front with
  | none =>
    rw [hfront] at h
    simp [Except.map] at h
  | some e =>
    rw [hfront] at h
    cases e with
    | file bytes => simp [Except.map] at h
    | directory inner =>
      dsimp only at h
      split at h
      · -- the directory above one that is there is there
        obtain ⟨outer, houter⟩ := Directory.find?_dropLast hfront
        simp [locateFrom, Except.map, houter] at h
      · next hup =>
        split at h
        · simp [Except.map, FileFault.nameTooLong] at h
        · next hlong =>
          split at h
          · next hthere =>
            have hfind := Directory.find?_append_of_directory hfront [name]
            rw [Directory.find?_singleton] at hfind
            obtain ⟨e, he⟩ := Option.isSome_iff_exists.1 hthere
            rw [he] at hfind
            simp [locateFrom, Except.map, hfind] at h
          · next hnone => exact ⟨⟨inner, hfront, by rwa [Option.not_isSome_iff_eq_none] at hnone⟩, hup, Nat.le_of_not_lt hlong⟩

theorem size_le_of_entry {p : Path} (hencodable : p.isEncodable = true) (h : t.entry p = .error .notFound) :
    p.size ≤ pathLimit := by
  by_contra hlong
  simp [entry, locate, hencodable, Nat.lt_of_not_le hlong, bind, Except.bind, FileFault.nameTooLong] at h

/-- If nothing is there, but its directory is, the name is new. -/
theorem isNew_of_entry {p : Path} {front : List Text} (hdescend : p.parent.descend? [p.name] = some p)
    (hencodable : p.isEncodable = true) (h : t.entry p = .error .notFound) (hparent : t.locate p.parent = .ok front) :
    t.IsNew front p.name := by
  refine isNew_of_find? ?_
  unfold entry at h
  rw [locate_descend? hdescend hencodable (size_le_of_entry hencodable h) hparent] at h
  cases hplace : t.locateFrom front [p.name] with
  | error f =>
    rw [hplace] at h
    cases h
    simp [Except.map]
  | ok place =>
    rw [hplace] at h
    simp only [bind, Except.bind] at h
    split at h
    · cases h
    · next hnone => simp [Except.map, hnone]

/-- A file goes where there was one, or under a new name. -/
theorem writePlace_cases {p : Path} (hencodable : p.isEncodable = true) {place : List Text} (h : t.writePlace p = .ok place) :
    (t.locate p = .ok place ∧ ∃ bytes, t.entries.find? place = some (.file bytes)) ∨
      p.parent.descend? [p.name] = some p ∧ p.size ≤ pathLimit ∧
        ∃ front, t.locate p.parent = .ok front ∧ place = front ++ [p.name] ∧ t.IsNew front p.name := by
  unfold writePlace at h
  cases hentry : t.entry p with
  | ok e =>
    rw [hentry] at h
    cases e with
    | directory entries => cases h
    | file bytes =>
      obtain ⟨place', hplace', hfind⟩ := entry_eq_ok.1 hentry
      obtain rfl := Except.ok.inj (h.symm.trans hplace')
      exact .inl ⟨h, bytes, hfind⟩
  | error f =>
    rw [hentry] at h
    cases f with
    | notFound =>
      dsimp only at h
      split at h
      · cases h
      · next hparts =>
        cases hparent : t.locate p.parent with
        | error f =>
          rw [hparent] at h
          cases h
        | ok front =>
          rw [hparent] at h
          cases h
          have hsplit : p.parts = p.parent.parts ++ [p.name] := by
            rw [Path.name, List.getLast?_eq_some_getLast hparts]
            exact (List.dropLast_append_getLast hparts).symm
          have hdescend : p.parent.descend? [p.name] = some p := Path.descend?_eq_some.2 ⟨rfl, hsplit⟩
          exact .inr ⟨hdescend, size_le_of_entry hencodable hentry, front, rfl, rfl,
            isNew_of_entry hdescend hencodable hentry hparent⟩
    | _ => cases h

/-- A file that was put at its place is found there. -/
theorem locate_of_writePlace (bytes : List UInt8) {p : Path} (hencodable : p.isEncodable = true) {place : List Text}
    (h : t.writePlace p = .ok place) : place ≠ [] ∧ (t.putAt (.file bytes) place).locate p = .ok place := by
  rcases writePlace_cases hencodable h with ⟨hlocate, old, hfind⟩ | ⟨hdescend, hsize, front, hparent, rfl, hnew⟩
  · have hplace (d : Directory) : t.entries.find? place ≠ some (.directory d) := by simp [hfind]
    refine ⟨?_, locate_putAt hplace hlocate⟩
    rintro rfl
    exact hplace _ rfl
  · obtain ⟨inner, hfront, hnone⟩ := hnew.directory
    have hplace (d : Directory) : t.entries.find? (front ++ [p.name]) ≠ some (.directory d) := by
      rw [Directory.find?_append_of_directory hfront, Directory.find?_singleton, hnone]
      simp
    have hput : (t.putAt (.file bytes) (front ++ [p.name])).entries.find? (front ++ [p.name]) = some (.file bytes) :=
      Directory.find?_putAt_self _ (by simp) t.entries
    obtain ⟨outer, houter, -⟩ := Directory.find?_putAt (e := .file bytes) hplace hfront
    have hthere : outer.lookup p.name = some (.file bytes) := by
      rw [← Directory.find?_singleton, ← Directory.find?_append_of_directory houter]
      exact hput
    refine ⟨by simp, ?_⟩
    rw [locate_descend? hdescend hencodable hsize (locate_putAt hplace hparent)]
    exact locateFrom_cons_eq_ok.2 ⟨outer, houter, .inr ⟨hnew.forward, hnew.short, by rw [hthere]; rfl, rfl⟩⟩

/-- What was written can be read. -/
theorem read_of_write {t' : FileTree} {p : Path} (hencodable : p.isEncodable = true) (h : t.write p bytes = .ok t') :
    t'.read p = .ok bytes := by
  unfold write at h
  cases hplace : t.writePlace p with
  | error f =>
    rw [hplace] at h
    cases h
  | ok place =>
    obtain ⟨hne, hlocate⟩ := locate_of_writePlace bytes hencodable hplace
    have hfind : (t.putAt (.file bytes) place).entries.find? place = some (.file bytes) :=
      Directory.find?_putAt_self (.file bytes) hne t.entries
    rw [hplace] at h
    simp only [bind, Except.bind] at h
    cases hsealed : t.sealed place with
    | some f =>
      rw [hsealed] at h
      cases h
    | none =>
      rw [hsealed] at h
      cases h
      have hsealed' : (t.putAt (.file bytes) place).sealed place = none := hsealed
      unfold read
      simp only [hlocate, bind, Except.bind, hfind, hsealed']

/-- Whether a file can be written does not depend on what is written. -/
theorem write_isOk (t : FileTree) (p : Path) (bytes bytes' : List UInt8) (h : ∃ t', t.write p bytes = .ok t') :
    ∃ t', t.write p bytes' = .ok t' := by
  unfold write at h ⊢
  cases hplace : t.writePlace p with
  | error f =>
    rw [hplace] at h
    cases h.choose_spec
  | ok place =>
    rw [hplace] at h
    simp only [bind, Except.bind] at h ⊢
    cases hsealed : t.sealed place with
    | some f =>
      rw [hsealed] at h
      cases h.choose_spec
    | none => exact ⟨_, rfl⟩

end FileTree

namespace Command

variable {t : FileTree} {file : Path}

/-- Where an empty file can be written, any text that has bytes can, and the file of any other one is left empty. -/
theorem writeFile_of_empty (h : (writeFile t file []).2 = none) (content : Text) :
    (writeFile t file content).2 = (if (Utf8.encode? content).isSome then none else some (.unwritable file)) ∧
      (writeFile t file content).1.read file = .ok ((Utf8.encode? content).getD []) := by
  unfold writeFile at h ⊢
  cases hencodable : file.isEncodable with
  | false =>
    rw [hencodable] at h
    cases h
  | true =>
    rw [hencodable] at h
    cases hempty : t.write file ((Utf8.encode? []).getD []) with
    | error f =>
      rw [hempty] at h
      cases h
    | ok t' =>
      obtain ⟨t'', ht''⟩ := t.write_isOk file _ ((Utf8.encode? content).getD []) ⟨t', hempty⟩
      rw [ht'']
      exact ⟨rfl, FileTree.read_of_write hencodable ht''⟩

/-- It is the same for pages. -/
theorem writePage_of_empty (h : (writePage t file []).2 = none) (content : Text) :
    (writePage t file content).2 = (if (Utf8.encode? content).isSome then none else some (.unwritable file)) ∧
      (writePage t file content).1.read file = .ok ((Utf8.encode? content).getD []) := by
  unfold writePage at h ⊢
  cases hencodable : file.parent.isEncodable with
  | false =>
    rw [hencodable] at h
    cases h
  | true =>
    rw [hencodable] at h
    cases hmade : t.makeDirectory file.parent with
    | mk t' failure =>
      rw [hmade] at h
      cases failure with
      | some failure => cases h
      | none => exact writeFile_of_empty h content

end Command

end Coupling
