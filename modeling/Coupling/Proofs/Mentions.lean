import Coupling.Proofs.TypeNames
import Coupling.References

/-!
# What a class refers to

A method mentions types in five places: as its result, as parameters, as declared exceptions, as operands of its
instructions and as types of local variables. A class refers to the element types of what its methods mention, without
the built-in ones. The array brackets come off in several places, when references are collected, when built-in types are
told apart and when packages are taken; the answers are the same wherever that is done first. So whether references are
collected method by method or for the whole class, and whether packages are taken of the references or of the mentioned
types, nothing changes.
-/

namespace Coupling

/-- A type that a method names in one of the five places. -/
def MethodSummary.Mentions (m : MethodSummary) (t : Text) : Prop :=
  t = m.result ∨ t ∈ m.parameters ∨ t ∈ m.exceptions ∨ t ∈ m.operands ∨ t ∈ m.locals

/-! ### Built-in types -/

@[simp] theorem isBuiltin_element (prefixes : List Text) (t : Text) :
    isBuiltin prefixes (TypeName.element t) = isBuiltin prefixes t := by
  rw [isBuiltin, TypeName.element_element, TypeName.package_element, isBuiltin]

@[simp] theorem isBuiltin_append_brackets (prefixes : List Text) (t : Text) (n : Nat) :
    isBuiltin prefixes (t ++ TypeName.brackets n) = isBuiltin prefixes t := by
  rw [isBuiltin, TypeName.element_append_brackets, TypeName.package_append_brackets, isBuiltin]

/-! ### References -/

theorem MethodSummary.mem_types {m : MethodSummary} {t : Text} : t ∈ m.types ↔ m.Mentions t := by
  simp only [MethodSummary.types, MethodSummary.Mentions, List.mem_cons, List.mem_append, SortedSet.mem_toList, or_assoc]

theorem mem_referencesOf {prefixes types : List Text} {n : Text} :
    n ∈ referencesOf prefixes types ↔ ∃ t ∈ types, TypeName.element t = n ∧ isBuiltin prefixes t = false := by
  rw [referencesOf, SortedSet.mem_filter, SortedSet.mem_ofList, List.mem_map, Bool.not_eq_true']
  constructor
  · rintro ⟨⟨t, ht, rfl⟩, hbuiltin⟩
    rw [isBuiltin_element] at hbuiltin
    exact ⟨t, ht, rfl, hbuiltin⟩
  · rintro ⟨t, ht, rfl, hbuiltin⟩
    rw [isBuiltin_element]
    exact ⟨⟨t, ht, rfl⟩, hbuiltin⟩

theorem MethodSummary.mem_references {prefixes : List Text} {m : MethodSummary} {n : Text} :
    n ∈ m.references prefixes ↔ ∃ t, m.Mentions t ∧ TypeName.element t = n ∧ isBuiltin prefixes t = false := by
  simp only [MethodSummary.references, mem_referencesOf, MethodSummary.mem_types]

theorem ClassSummary.mem_references {prefixes : List Text} {c : ClassSummary} {n : Text} :
    n ∈ c.references prefixes ↔ ∃ m ∈ c.methods, n ∈ m.references prefixes := by
  simp only [ClassSummary.references, MethodSummary.references, mem_referencesOf, List.mem_flatMap]
  constructor
  · rintro ⟨t, ⟨m, hm, ht⟩, hn⟩
    exact ⟨m, hm, t, ht, hn⟩
  · rintro ⟨m, hm, t, ht, hn⟩
    exact ⟨t, ⟨m, hm, ht⟩, hn⟩

theorem SortedSet.mem_foldr_union {sets : List (SortedSet Text)} {t : Text} :
    t ∈ sets.foldr SortedSet.union ∅ ↔ ∃ s ∈ sets, t ∈ s := by
  induction sets with
  | nil => simp
  | cons s sets ih => simp [ih]

/-- What a class refers to is what its methods refer to, taken together. -/
theorem ClassSummary.references_eq (prefixes : List Text) (c : ClassSummary) :
    c.references prefixes = (c.methods.map (MethodSummary.references prefixes)).foldr SortedSet.union ∅ := by
  apply SortedSet.ext
  intro n
  rw [ClassSummary.mem_references, SortedSet.mem_foldr_union]
  constructor
  · rintro ⟨m, hm, hn⟩
    exact ⟨m.references prefixes, List.mem_map_of_mem hm, hn⟩
  · rintro ⟨s, hs, hn⟩
    obtain ⟨m, hm, rfl⟩ := List.mem_map.1 hs
    exact ⟨m, hm, hn⟩

theorem ClassSummary.mem_references_iff {prefixes : List Text} {c : ClassSummary} {n : Text} :
    n ∈ c.references prefixes ↔
      ∃ m ∈ c.methods, ∃ t, m.Mentions t ∧ TypeName.element t = n ∧ isBuiltin prefixes t = false := by
  simp only [ClassSummary.mem_references, MethodSummary.mem_references]

/-- References are exact: a class refers to the element types of the types that its methods mention and that are not built
in, which are also the references of its methods taken together. Array brackets matter neither to what is built in nor to
packages, the references have none, and their packages are those of the mentioned types. -/
theorem references_exact (prefixes : List Text) (c : ClassSummary) :
    c.references prefixes = (c.methods.map (MethodSummary.references prefixes)).foldr SortedSet.union ∅ ∧
    (∀ n, n ∈ c.references prefixes ↔ ∃ m ∈ c.methods, ∃ t, m.Mentions t ∧ TypeName.element t = n ∧
      isBuiltin prefixes t = false) ∧
    (∀ t, (∃ k, t = TypeName.element t ++ TypeName.brackets k) ∧
      TypeName.BeforeLastDot (TypeName.element t) (TypeName.package t)) ∧
    (∀ t k, isBuiltin prefixes (TypeName.element t) = isBuiltin prefixes t ∧
      isBuiltin prefixes (t ++ TypeName.brackets k) = isBuiltin prefixes t ∧
      TypeName.package (TypeName.element t) = TypeName.package t ∧
      TypeName.package (t ++ TypeName.brackets k) = TypeName.package t) ∧
    (∀ n ∈ c.references prefixes, ¬ Text.ofString "[]" <:+ n) ∧
    (∀ p, (∃ n ∈ c.references prefixes, TypeName.package n = p) ↔ ∃ m ∈ c.methods, ∃ t, m.Mentions t ∧
      isBuiltin prefixes t = false ∧ TypeName.package t = p) := by
  refine ⟨c.references_eq prefixes, fun n => ClassSummary.mem_references_iff, fun t => ?_, fun t k => ?_, fun n hn => ?_,
    fun p => ?_⟩
  · exact ⟨TypeName.exists_brackets t, TypeName.beforeLastDot_package t⟩
  · exact ⟨isBuiltin_element prefixes t, isBuiltin_append_brackets prefixes t k, TypeName.package_element t,
      TypeName.package_append_brackets t k⟩
  · obtain ⟨m, -, t, -, rfl, -⟩ := ClassSummary.mem_references_iff.1 hn
    exact TypeName.not_suffix_element t
  · constructor
    · rintro ⟨n, hn, rfl⟩
      obtain ⟨m, hm, t, ht, rfl, hbuiltin⟩ := ClassSummary.mem_references_iff.1 hn
      exact ⟨m, hm, t, ht, hbuiltin, (TypeName.package_element t).symm⟩
    · rintro ⟨m, hm, t, ht, hbuiltin, rfl⟩
      exact ⟨TypeName.element t, ClassSummary.mem_references_iff.2 ⟨m, hm, t, ht, rfl, hbuiltin⟩,
        TypeName.package_element t⟩

end Coupling
