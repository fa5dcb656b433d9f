import Coupling.Proofs.ProjectFiles

/-!
# Settings are validated exactly

A table of settings is good if each of the four known keys that it gives a value to has one of the right kind. Then every
setting is what the table gives, and a setting that it does not give is the default one; values such as an empty list, zero
and `false` are given like all others. A table that is not good is refused, and the first bad key is named. Nothing else in
a table matters: not the order of its keys, not keys without a value, and not the keys that are not known, which are only
warned of. Settings that are replaced afterwards are the ones for which there is a new value, and the last one counts.
-/

namespace Coupling

open Toml (Value Entries)

namespace Toml.Entries

variable {entries : Entries} {name : String} {v : Value}

/-- A table gives a value to a name. A name that stands there without a value is not given one. -/
def Provides (entries : Entries) (name : String) (v : Value) : Prop := entries.lookup name = some v ∧ v ≠ .absent

theorem value?_eq_some : entries.value? name = some v ↔ entries.Provides name v := by
  unfold value? Provides
  split
  · next h => simp [h]
  · next h =>
    rw [h]
    constructor
    · intro hnone
      cases hnone
    · rintro ⟨habsent, hne⟩
      exact absurd (Option.some.inj habsent).symm hne
  · next u hne h =>
    rw [h, Option.some.injEq]
    constructor
    · rintro rfl
      exact ⟨rfl, hne⟩
    · rintro ⟨rfl, -⟩
      rfl

theorem value?_eq_none : entries.value? name = none ↔ ∀ v, ¬ entries.Provides name v := by
  rw [Option.eq_none_iff_forall_ne_some]
  exact forall_congr' fun v => not_congr value?_eq_some

end Toml.Entries

namespace Settings

variable {source : Path} {entries : Entries}

/-! ### Kinds of values -/

/-- A list made only of texts. -/
def IsTexts (v : Value) (ts : List Text) : Prop := ∃ ss : List String, v = .list (ss.map .string) ∧ ts = ss.map Text.ofString

/-- An integer that is not negative. -/
def IsCount (v : Value) (n : Int) : Prop := v = .int n ∧ 0 ≤ n

/-- A truth value. -/
def IsTruth (v : Value) (b : Bool) : Prop := v = .bool b

theorem strings?_list_eq_some {items : List Value} {ts : List Text} :
    strings? (.list items) = some ts ↔ ∃ ss : List String, items = ss.map .string ∧ ts = ss.map Text.ofString := by
  rw [strings?]
  induction items generalizing ts with
  | nil =>
    rw [List.mapM_nil]
    constructor
    · intro h
      exact ⟨[], rfl, (Option.some.inj h).symm⟩
    · rintro ⟨ss, hnil, rfl⟩
      rw [List.map_eq_nil_iff.1 hnil.symm]
      rfl
  | cons item items ih =>
    rw [List.mapM_cons]
    constructor
    · intro h
      obtain ⟨t, hitem, h⟩ := Option.bind_eq_some_iff.1 h
      obtain ⟨rest, hitems, h⟩ := Option.bind_eq_some_iff.1 h
      obtain ⟨ss, rfl, rfl⟩ := ih.1 hitems
      obtain rfl := Option.some.inj h
      cases item with
      | string s =>
        obtain rfl := Option.some.inj hitem
        exact ⟨s :: ss, rfl, rfl⟩
      | _ => cases hitem
    · rintro ⟨ss, hss, rfl⟩
      cases ss with
      | nil => cases hss
      | cons s ss =>
        rw [List.map_cons, List.cons.injEq] at hss
        obtain ⟨rfl, rfl⟩ := hss
        rw [ih.2 ⟨ss, rfl, rfl⟩]
        rfl

theorem strings?_eq_some (v : Value) (ts : List Text) : strings? v = some ts ↔ IsTexts v ts := by
  cases v with
  | list items => simp [strings?_list_eq_some, IsTexts]
  | _ => simp [strings?, IsTexts]

theorem count?_eq_some (v : Value) (n : Int) : count? v = some n ↔ IsCount v n := by
  cases v with
  | int m =>
    rw [count?, IsCount]
    split <;> simp <;> omega
  | _ => simp [count?, IsCount]

theorem truth?_eq_some (v : Value) (b : Bool) : truth? v = some b ↔ IsTruth v b := by
  cases v with
  | bool c => simp [truth?, IsTruth]
  | _ => simp [truth?, IsTruth]

/-! ### Keys -/

/-- The values that a key may have. -/
def Field.Accepts : Field → Value → Prop
  | .builtinPrefixes, v => ∃ ts, IsTexts v ts
  | .packages, v => ∃ ts, IsTexts v ts
  | .workers, v => ∃ n, IsCount v n
  | .restrictToTargets, v => ∃ b, IsTruth v b

/-- A key is given a value that it may not have. -/
def Offends (entries : Entries) (f : Field) : Prop := ∃ v, entries.Provides f.name v ∧ ¬ f.Accepts v

/-- The first of the keys, in the order in which they are checked, that is given a value it may not have. -/
def IsFirstOffender (entries : Entries) (f : Field) : Prop :=
  ∃ front back, Field.all = front ++ f :: back ∧ (∀ g ∈ front, ¬ Offends entries g) ∧ Offends entries f

/-- A setting is what is given for it, and if nothing is given, it is what it was before. -/
structure Takes {α β : Type} (provided : β → Prop) (means : β → α → Prop) (before after : α) : Prop where
  given : ∀ v, provided v → means v after
  missing : (∀ v, ¬ provided v) → after = before

theorem Takes.unique {α β : Type} {provided : β → Prop} {means : β → α → Prop} {before a b : α}
    (hmeans : ∀ v a b, means v a → means v b → a = b) (ha : Takes provided means before a)
    (hb : Takes provided means before b) : a = b := by
  by_cases h : ∃ v, provided v
  · obtain ⟨v, hv⟩ := h
    exact hmeans v a b (ha.given v hv) (hb.given v hv)
  · rw [ha.missing (not_exists.1 h), hb.missing (not_exists.1 h)]

/-- A key is refused, or gives what the table has for it. -/
theorem field_cases {α : Type} {read? : Value → Option α} {means : Value → α → Prop} {f : Field}
    (hread : ∀ v a, read? v = some a ↔ means v a) (haccepts : ∀ v, f.Accepts v ↔ ∃ a, means v a) (source : Path)
    (entries : Entries) :
    Offends entries f ∧ field source entries f read? = .error (.badValue source f) ∨
      ¬ Offends entries f ∧ ∃ a?, field source entries f read? = .ok a? ∧
        ∀ before, Takes (entries.Provides f.name) means before (a?.getD before) := by
  unfold field Offends
  cases hvalue : entries.value? f.name with
  | none =>
    have hnone := Entries.value?_eq_none.1 hvalue
    refine .inr ⟨fun ⟨v, hv, _⟩ => hnone v hv, none, rfl, fun before => ⟨fun v hv => absurd hv (hnone v), fun _ => rfl⟩⟩
  | some v =>
    have hprovides := Entries.value?_eq_some.1 hvalue
    have honly {u : Value} (hu : entries.Provides f.name u) : u = v :=
      Option.some.inj ((Entries.value?_eq_some.2 hu).symm.trans hvalue)
    dsimp only
    cases hv : read? v with
    | none =>
      refine .inl ⟨⟨v, hprovides, fun hmay => ?_⟩, rfl⟩
      obtain ⟨a, ha⟩ := (haccepts v).1 hmay
      rw [(hread v a).2 ha] at hv
      cases hv
    | some a =>
      have ha := (hread v a).1 hv
      refine .inr ⟨?_, some a, rfl, fun before => ⟨?_, fun hmissing => absurd hprovides (hmissing v)⟩⟩
      · rintro ⟨u, hu, hnot⟩
        rw [honly hu] at hnot
        exact hnot ((haccepts v).2 ⟨a, ha⟩)
      · intro u hu
        rw [honly hu]
        exact ha

/-! ### Tables -/

/-- Settings as a table has them, with the default for each that it does not give. -/
structure IsFrom (source : Path) (entries : Entries) (s : Settings) : Prop where
  builtinPrefixes : Takes (entries.Provides "builtin_prefixes") IsTexts ({} : Settings).builtinPrefixes s.builtinPrefixes
  packages : Takes (entries.Provides "packages") IsTexts ({} : Settings).packages s.packages
  workers : Takes (entries.Provides "workers") IsCount ({} : Settings).workers s.workers
  restrictToTargets : Takes (entries.Provides "restrict_to_targets") IsTruth ({} : Settings).restrictToTargets
    s.restrictToTargets
  source : s.source = some source

theorem IsFrom.unique {s s' : Settings} (h : IsFrom source entries s) (h' : IsFrom source entries s') : s = s' := by
  have htexts (v : Value) (a b : List Text) (ha : IsTexts v a) (hb : IsTexts v b) : a = b :=
    Option.some.inj (((strings?_eq_some v a).2 ha).symm.trans ((strings?_eq_some v b).2 hb))
  have hcount (v : Value) (a b : Int) (ha : IsCount v a) (hb : IsCount v b) : a = b :=
    Option.some.inj (((count?_eq_some v a).2 ha).symm.trans ((count?_eq_some v b).2 hb))
  have htruth (v : Value) (a b : Bool) (ha : IsTruth v a) (hb : IsTruth v b) : a = b :=
    Option.some.inj (((truth?_eq_some v a).2 ha).symm.trans ((truth?_eq_some v b).2 hb))
  have hprefixes := h.builtinPrefixes.unique htexts h'.builtinPrefixes
  have hpackages := h.packages.unique htexts h'.packages
  have hworkers := h.workers.unique hcount h'.workers
  have hrestrict := h.restrictToTargets.unique htruth h'.restrictToTargets
  have hsource := h.source.trans h'.source.symm
  cases s
  cases s'
  simp_all

/-- A table is refused for its first bad key, or it gives the settings. -/
theorem ofEntries_cases (source : Path) (entries : Entries) :
    (∃ f, IsFirstOffender entries f ∧ ofEntries source entries = .error (.badValue source f)) ∨
      (∀ f, ¬ Offends entries f) ∧ ∃ s, ofEntries source entries = .ok s ∧ IsFrom source entries s := by
  unfold ofEntries
  -- The keys are checked one after another. Where one is refused, those before it are known to be good.
  obtain ⟨hbad, hprefixes⟩ | ⟨hgood₁, prefixes, hprefixes, htakes₁⟩ :=
    field_cases strings?_eq_some (f := .builtinPrefixes) (fun _ => Iff.rfl) source entries
  · rw [hprefixes]
    exact .inl ⟨_, ⟨[], _, rfl, by simp, hbad⟩, rfl⟩
  obtain ⟨hbad, hpackages⟩ | ⟨hgood₂, packages, hpackages, htakes₂⟩ :=
    field_cases strings?_eq_some (f := .packages) (fun _ => Iff.rfl) source entries
  · rw [hprefixes, hpackages]
    exact .inl ⟨_, ⟨[.builtinPrefixes], _, rfl, by simp [hgood₁], hbad⟩, rfl⟩
  obtain ⟨hbad, hworkers⟩ | ⟨hgood₃, workers, hworkers, htakes₃⟩ :=
    field_cases count?_eq_some (f := .workers) (fun _ => Iff.rfl) source entries
  · rw [hprefixes, hpackages, hworkers]
    exact .inl ⟨_, ⟨[.builtinPrefixes, .packages], _, rfl, by simp [hgood₁, hgood₂], hbad⟩, rfl⟩
  obtain ⟨hbad, hrestrict⟩ | ⟨hgood₄, restrict, hrestrict, htakes₄⟩ :=
    field_cases truth?_eq_some (f := .restrictToTargets) (fun _ => Iff.rfl) source entries
  · rw [hprefixes, hpackages, hworkers, hrestrict]
    exact .inl ⟨_, ⟨[.builtinPrefixes, .packages, .workers], _, rfl, by simp [hgood₁, hgood₂, hgood₃], hbad⟩, rfl⟩
  · rw [hprefixes, hpackages, hworkers, hrestrict]
    refine .inr ⟨fun f => ?_, _, rfl, htakes₁ _, htakes₂ _, htakes₃ _, htakes₄ _, rfl⟩
    cases f with
    | builtinPrefixes => exact hgood₁
    | packages => exact hgood₂
    | workers => exact hgood₃
    | restrictToTargets => exact hgood₄

/-- Settings that a table has are given values that they may have. -/
theorem IsFrom.not_offends {s : Settings} (h : IsFrom source entries s) (f : Field) : ¬ Offends entries f := by
  rintro ⟨v, hv, hnot⟩
  cases f with
  | builtinPrefixes => exact hnot ⟨_, h.builtinPrefixes.given v hv⟩
  | packages => exact hnot ⟨_, h.packages.given v hv⟩
  | workers => exact hnot ⟨_, h.workers.given v hv⟩
  | restrictToTargets => exact hnot ⟨_, h.restrictToTargets.given v hv⟩

theorem IsFirstOffender.unique {f g : Field} (hf : IsFirstOffender entries f) (hg : IsFirstOffender entries g) : f = g := by
  obtain ⟨front, back, hall, hfront, hoffends⟩ := hf
  obtain ⟨front', back', hall', hfront', hoffends'⟩ := hg
  rcases List.append_eq_append_iff.1 (hall.symm.trans hall') with ⟨more, rfl, hmore⟩ | ⟨more, rfl, hmore⟩
  · cases more with
    | nil => exact (List.cons.inj hmore).1
    | cons c more =>
      obtain rfl := (List.cons.inj hmore).1
      exact absurd hoffends (hfront' f (by simp))
  · cases more with
    | nil => exact (List.cons.inj hmore).1.symm
    | cons c more =>
      obtain rfl := (List.cons.inj hmore).1
      exact absurd hoffends' (hfront g (by simp))

/-- What is wrong with a value that holds no settings. -/
inductive Refuses (source : Path) : Value → Fault → Prop where
  /-- It is not a table. -/
  | notTable {v : Value} : (∀ entries, v ≠ .table entries) → Refuses source v (.notTable source)
  /-- A key has a value that it may not have, and no key that is checked earlier does. -/
  | badValue {entries : Entries} {f : Field} : IsFirstOffender entries f →
    Refuses source (.table entries) (.badValue source f)

theorem ofValue_eq_error {v : Value} {fault : Fault} : ofValue source v = .error fault ↔ Refuses source v fault := by
  cases v with
  | table entries =>
    rw [ofValue]
    constructor
    · intro h
      obtain ⟨f, hfirst, hf⟩ | ⟨-, s, hs, -⟩ := ofEntries_cases source entries
      · rw [hf] at h
        cases h
        exact .badValue hfirst
      · rw [hs] at h
        cases h
    · intro h
      cases h with
      | notTable hnot => exact absurd rfl (hnot entries)
      | badValue hfirst =>
        obtain ⟨f, hf, herror⟩ | ⟨hgood, -⟩ := ofEntries_cases source entries
        · rw [herror, hf.unique hfirst]
        · obtain ⟨-, -, -, -, hoffends⟩ := hfirst
          exact absurd hoffends (hgood _)
  | _ =>
    constructor
    · intro h
      cases h
      exact .notTable fun entries => by simp
    · intro h
      cases h
      rfl

theorem ofValue_eq_ok {v : Value} {s : Settings} :
    ofValue source v = .ok s ↔ ∃ entries, v = .table entries ∧ IsFrom source entries s := by
  cases v with
  | table entries =>
    have htable : (∃ e, Value.table entries = .table e ∧ IsFrom source e s) ↔ IsFrom source entries s := by simp
    rw [ofValue, htable]
    obtain ⟨f, hfirst, hf⟩ | ⟨-, s', hs', hfrom⟩ := ofEntries_cases source entries
    · rw [hf]
      obtain ⟨-, -, -, -, hoffends⟩ := hfirst
      constructor
      · intro h
        cases h
      · intro h
        exact absurd hoffends (h.not_offends f)
    · rw [hs', Except.ok.injEq]
      constructor
      · rintro rfl
        exact hfrom
      · exact hfrom.unique
  | _ => simp [ofValue]

theorem exists_ofValue_eq_error {v : Value} : (∃ fault, ofValue source v = .error fault) ↔
    (∀ entries, v ≠ .table entries) ∨ ∃ entries, v = .table entries ∧ ∃ f, Offends entries f := by
  simp only [ofValue_eq_error]
  constructor
  · rintro ⟨fault, h⟩
    cases h with
    | notTable hnot => exact .inl hnot
    | badValue hfirst =>
      obtain ⟨-, -, -, -, hoffends⟩ := hfirst
      exact .inr ⟨_, rfl, _, hoffends⟩
  · rintro (hnot | ⟨entries, rfl, f, hoffends⟩)
    · exact ⟨_, .notTable hnot⟩
    · obtain ⟨f, hfirst, -⟩ | ⟨hgood, -⟩ := ofEntries_cases source entries
      · exact ⟨_, .badValue hfirst⟩
      · exact absurd hoffends (hgood f)

/-! ### What does not matter -/

/-- Whether there is a value. -/
def isGiven : Value → Bool
  | .absent => false
  | _ => true

theorem isGiven_iff {v : Value} : isGiven v = true ↔ v ≠ .absent := by
  cases v <;> simp [isGiven]

/-- The entries of a table that are about settings: those of known keys that have a value. -/
def relevant (entries : Entries) : Entries :=
  entries.filter fun e => (Field.all.map Field.name).contains e.1 && isGiven e.2

theorem Field.name_mem (f : Field) : f.name ∈ Field.all.map Field.name := by
  cases f <;> simp [Field.all]

theorem provides_iff_mem_relevant (h : (entries.map Prod.fst).Nodup) (f : Field) {v : Value} :
    entries.Provides f.name v ↔ (f.name, v) ∈ relevant entries := by
  rw [Entries.Provides, lookup_eq_some_iff_mem h, relevant, List.mem_filter, Bool.and_eq_true, isGiven_iff,
    List.contains_iff_mem]
  simp [f.name_mem]

/-- Only the values of the known keys are read. -/
theorem ofEntries_congr {entries' : Entries} (h : ∀ f : Field, entries.value? f.name = entries'.value? f.name) :
    ofEntries source entries = ofEntries source entries' := by
  unfold ofEntries field
  simp only [h]

theorem ofEntries_eq_of_perm {entries' : Entries} (h : (entries.map Prod.fst).Nodup) (h' : (entries'.map Prod.fst).Nodup)
    (hperm : (relevant entries).Perm (relevant entries')) : ofEntries source entries = ofEntries source entries' := by
  refine ofEntries_congr fun f => Option.ext fun v => ?_
  rw [Entries.value?_eq_some, Entries.value?_eq_some, provides_iff_mem_relevant h, provides_iff_mem_relevant h',
    hperm.mem_iff]

/-! ### Warnings -/

/-- A key of a table that is not known. -/
def IsUnknown (v : Value) (key : String) : Prop :=
  ∃ entries, v = .table entries ∧ (∃ u, (key, u) ∈ entries) ∧ ∀ f : Field, f.name ≠ key

/-- What is warned of: keys that are not known, if there are any, all of them and in order. -/
inductive Warns (source : Path) (v : Value) : Option Text → Prop where
  /-- All keys are known. -/
  | quiet : (∀ key, ¬ IsUnknown v key) → Warns source v none
  /-- The keys that are not known. -/
  | aloud {keys : List Text} : keys ≠ [] → keys.Pairwise (· < ·) →
    (∀ key, key ∈ keys ↔ ∃ k, IsUnknown v k ∧ Text.ofString k = key) →
    Warns source v (some (source.toText ++ ": ignoring unknown keys " ++ Quoted.list keys))

theorem mem_unknownKeys {v : Value} {key : Text} : key ∈ unknownKeys v ↔ ∃ k, IsUnknown v k ∧ Text.ofString k = key := by
  have hknown (k : String) : k ∉ Field.all.map Field.name ↔ ∀ f : Field, f.name ≠ k := by
    constructor
    · rintro h f rfl
      exact h f.name_mem
    · intro h hmem
      obtain ⟨f, -, hf⟩ := List.mem_map.1 hmem
      exact h f hf
  cases v with
  | table entries => simp [unknownKeys, IsUnknown, ← hknown]
  | _ => simp [unknownKeys, IsUnknown]

theorem warns_warning? (source : Path) (v : Value) : Warns source v (warning? source v) := by
  unfold warning?
  have hmem (key : Text) : key ∈ (unknownKeys v).toList ↔ ∃ k, IsUnknown v k ∧ Text.ofString k = key := mem_unknownKeys
  split
  · next hnil =>
    refine .quiet fun key hkey => ?_
    have hin := (hmem _).2 ⟨key, hkey, rfl⟩
    rw [hnil] at hin
    exact absurd hin List.not_mem_nil
  · next keys hne => exact .aloud hne (unknownKeys v).increasing hmem

/-! ### Replaced settings -/

/-- Settings that are the given ones where there are any, and the old ones elsewhere. -/
structure IsOverridden (s : Settings) (o : Overrides) (s' : Settings) : Prop where
  builtinPrefixes : Takes (o.builtinPrefixes = some ·) (fun v a => a = v) s.builtinPrefixes s'.builtinPrefixes
  packages : Takes (o.packages = some ·) (fun v a => a = v) s.packages s'.packages
  workers : Takes (o.workers = some ·) (fun v a => a = v) s.workers s'.workers
  restrictToTargets : Takes (o.restrictToTargets = some ·) (fun v a => a = v) s.restrictToTargets s'.restrictToTargets
  source : Takes (o.source = some ·) (fun v a => a = some v) s.source s'.source

theorem takes_getD {α : Type} (given : Option α) (before : α) :
    Takes (given = some ·) (fun v a => a = v) before (given.getD before) := by
  cases given with
  | none => exact ⟨fun v h => absurd h (by simp), fun _ => rfl⟩
  | some a => exact ⟨fun v h => Option.some.inj h, fun h => absurd rfl (h a)⟩

theorem takes_or {α : Type} (given before : Option α) :
    Takes (given = some ·) (fun v a => a = some v) before (given.or before) := by
  cases given with
  | none => exact ⟨fun v h => absurd h (by simp), fun _ => rfl⟩
  | some a => exact ⟨fun v h => h, fun h => absurd rfl (h a)⟩

theorem isOverridden_override (s : Settings) (o : Overrides) : IsOverridden s o (s.override o) :=
  ⟨takes_getD _ _, takes_getD _ _, takes_getD _ _, takes_getD _ _, takes_or _ _⟩

end Settings

/-- New values of two origins, of which the later ones count. -/
def Overrides.followedBy (o later : Overrides) : Overrides where
  builtinPrefixes := later.builtinPrefixes.or o.builtinPrefixes
  packages := later.packages.or o.packages
  workers := later.workers.or o.workers
  restrictToTargets := later.restrictToTargets.or o.restrictToTargets
  source := later.source.or o.source

namespace Settings

theorem override_override (s : Settings) (o later : Overrides) :
    (s.override o).override later = s.override (o.followedBy later) := by
  have hor {α : Type} (x y : Option α) (a : α) : x.getD (y.getD a) = (x.or y).getD a := by
    cases x <;> rfl
  simp only [override, Overrides.followedBy, hor, Option.or_assoc]

/-! ### Validation as a whole -/

/-- How a value of a file becomes settings. It is refused exactly if it is not a table, or if a known key has a value that it
may not have; the fault names the first such key, in the order in which keys are checked. Otherwise each setting is what the
table gives, and the default if it gives nothing. Of a table only the known keys that have a value matter, in any order; keys
that are not known are warned of, all of them in order, and the warning is all that is logged. Replacing settings changes
those for which there is a new value, and doing so twice is the same as doing it once with the later values. -/
theorem validation_exact (source : Path) (v : Value) :
    ((∃ fault, ofValue source v = .error fault) ↔
      (∀ entries, v ≠ .table entries) ∨ ∃ entries, v = .table entries ∧ ∃ f, Offends entries f) ∧
    (∀ fault, ofValue source v = .error fault ↔ Refuses source v fault) ∧
    ((Fault.notTable source).message = source.toText ++ Text.ofString ": [mainseq] must be a table" ∧
      ∀ f : Field, (Fault.badValue source f).message =
        source.toText ++ Text.ofString (": '" ++ f.name ++ "' " ++ f.demand)) ∧
    (∀ s, ofValue source v = .ok s ↔ ∃ entries, v = .table entries ∧ IsFrom source entries s) ∧
    (∀ entries entries' : Entries, (entries.map Prod.fst).Nodup → (entries'.map Prod.fst).Nodup →
      (relevant entries).Perm (relevant entries') → ofValue source (.table entries) = ofValue source (.table entries')) ∧
    (Warns source v (warning? source v) ∧ ∀ log, (Project.settingsOf source v).run.run log =
      ((ofValue source v).mapError .settings, log ++ (warning? source v).toList.map (LogLine.mk .warning))) ∧
    ∀ s o, IsOverridden s o (s.override o) ∧ ∀ later, (s.override o).override later = s.override (o.followedBy later) := by
  refine ⟨exists_ofValue_eq_error, fun fault => ofValue_eq_error, ⟨rfl, fun f => rfl⟩, fun s => ofValue_eq_ok,
    fun entries entries' h h' hperm => ofEntries_eq_of_perm h h' hperm, ⟨warns_warning? source v, fun log => ?_⟩,
    fun s o => ⟨isOverridden_override s o, override_override s o⟩⟩
  unfold Project.settingsOf
  cases warning? source v with
  | none =>
    rw [Option.toList_none, List.map_nil, List.append_nil]
    rfl
  | some warning => rfl

-- Both keys are bad, and the one that is checked first is named, wherever it stands in the table.
example : ofValue "c.toml" (.table [("workers", .bool true), ("packages", .list [.string "a", .int 1])]) =
    .error (.badValue "c.toml" .packages) := rfl

end Settings

end Coupling
