import Coupling.Proofs.TypeNames
import Coupling.References
import Coupling.Text.Split

/-!
# Packages by their segments

A prefix such as `java.` stands for a package and all packages inside it, where one package lies inside another if the
segments of the second begin those of the first. The prefixes are compared as texts, letter by letter, and the dot at their
end is what keeps them to whole segments: `javalang` begins with the letters of `java`, but not with its segment. So a
prefix that lies inside another one adds nothing to a list of prefixes.
-/

namespace Coupling

/-! ### Parts of a text -/

namespace Text

theorem intercalate_append {α : Type} (sep : List α) {front back : List (List α)} (hfront : front ≠ [])
    (hback : back ≠ []) :
    sep.intercalate (front ++ back) = sep.intercalate front ++ sep ++ sep.intercalate back := by
  induction front with
  | nil => exact absurd rfl hfront
  | cons part front ih =>
    cases front with
    | nil =>
      obtain ⟨next, back, rfl⟩ := List.exists_cons_of_ne_nil hback
      rw [List.singleton_append, List.intercalate_cons_cons, List.intercalate_singleton]
    | cons next front =>
      have hrest := ih (List.cons_ne_nil next front)
      rw [List.cons_append, List.cons_append, List.intercalate_cons_cons, ← List.cons_append, hrest,
        List.intercalate_cons_cons]
      simp only [List.append_assoc]

theorem mem_intercalate {α : Type} {sep : List α} {parts : List (List α)} {c : α} (h : c ∈ sep.intercalate parts) :
    c ∈ sep ∨ ∃ part ∈ parts, c ∈ part := by
  induction parts with
  | nil => exact absurd h List.not_mem_nil
  | cons part parts ih =>
    cases parts with
    | nil =>
      rw [List.intercalate_singleton] at h
      exact .inr ⟨part, List.mem_cons_self, h⟩
    | cons next parts =>
      rw [List.intercalate_cons_cons, List.mem_append, List.mem_append] at h
      rcases h with (h | h) | h
      · exact .inr ⟨part, List.mem_cons_self, h⟩
      · exact .inl h
      · exact (ih h).imp_right fun ⟨other, hother, hc⟩ => ⟨other, List.mem_cons_of_mem _ hother, hc⟩

theorem map_intercalate {α β : Type} (f : α → β) (sep : List α) (parts : List (List α)) :
    (sep.intercalate parts).map f = (sep.map f).intercalate (parts.map (List.map f)) := by
  induction parts with
  | nil => rfl
  | cons part parts ih =>
    cases parts with
    | nil => simp only [List.map_cons, List.map_nil, List.intercalate_singleton]
    | cons next parts =>
      rw [List.intercalate_cons_cons, List.map_append, List.map_append, ih]
      simp only [List.map_cons, List.intercalate_cons_cons]

variable {α : Type} [DecidableEq α] (sep : α)

theorem split_eq_splitOn (t : List α) : split sep t = t.splitOn sep := by
  induction t with
  | nil => rw [split, List.splitOn_nil]
  | cons c t ih =>
    rw [split, List.splitOn_cons_eq_if_modifyHead, ← ih]
    simp only [beq_iff_eq]
    cases hsplit : split sep t with
    | nil => exact absurd hsplit (split_ne_nil sep t)
    | cons part parts => rfl

/-- Joining undoes splitting. -/
theorem intercalate_split (t : List α) : [sep].intercalate (split sep t) = t := by
  rw [split_eq_splitOn, List.intercalate_splitOn]

/-- Splitting undoes joining, if no part holds the divider. -/
theorem split_intercalate {parts : List (List α)} (hsep : ∀ part ∈ parts, sep ∉ part) (hparts : parts ≠ []) :
    split sep ([sep].intercalate parts) = parts := by
  rw [split_eq_splitOn]
  exact List.splitOn_intercalate sep hsep hparts

theorem split_of_not_mem {t : List α} (h : sep ∉ t) : split sep t = [t] := by
  rw [split_eq_splitOn]
  exact List.splitOn_eq_singleton h

/-- There is one part just when there is no divider. -/
theorem length_split_eq_one {t : List α} : (split sep t).length = 1 ↔ sep ∉ t := by
  constructor
  · intro h
    obtain ⟨part, hpart⟩ := List.length_eq_one_iff.1 h
    have ht := intercalate_split sep t
    rw [hpart, List.intercalate_singleton] at ht
    rw [← ht]
    exact not_mem_of_mem_split (hpart ▸ List.mem_singleton_self part)
  · intro h
    rw [split_of_not_mem sep h, List.length_singleton]

theorem split_append_sep (q p : List α) : split sep (q ++ sep :: p) = split sep q ++ split sep p := by
  simp only [split_eq_splitOn, List.splitOn_eq_splitOnP]
  exact List.splitOnP_append_cons q p (beq_self_eq_true sep)

/-- The parts of one list begin those of another if the lists are equal, or a divider follows the first in the second. -/
theorem split_prefix_iff {q p : List α} : split sep q <+: split sep p ↔ p = q ∨ q ++ [sep] <+: p := by
  constructor
  · rintro ⟨more, hmore⟩
    have hp := intercalate_split sep p
    rw [← hmore] at hp
    cases more with
    | nil =>
      rw [List.append_nil, intercalate_split] at hp
      exact .inl hp.symm
    | cons part more =>
      rw [intercalate_append [sep] (split_ne_nil sep q) (List.cons_ne_nil part more), intercalate_split] at hp
      exact .inr ⟨_, hp⟩
  · rintro (rfl | ⟨rest, rfl⟩)
    · exact List.prefix_rfl
    · rw [List.append_assoc, List.singleton_append, split_append_sep]
      exact List.prefix_append _ _

end Text

/-! ### Prefixes -/

/-- A package that is the other one or lies inside it: its segments begin with those of the other. -/
def InPackage (package other : Text) : Prop :=
  Text.split ('.' : CodePoint) other <+: Text.split ('.' : CodePoint) package

/-- The prefixes that stand for packages. -/
def withDots (packages : List Text) : List Text := packages.map (· ++ ".")

/-- The names of the primitive types, and `void`. -/
def keywords : List String := ["void", "byte", "char", "double", "float", "int", "long", "short", "boolean"]

/-- A type whose element type is primitive or `void`. -/
def IsPrimitive (type : Text) : Prop := ∃ word ∈ keywords, TypeName.element type = Text.ofString word

theorem InPackage.refl (package : Text) : InPackage package package := List.prefix_rfl

theorem InPackage.trans {p q r : Text} (h : InPackage p q) (h' : InPackage q r) : InPackage p r :=
  List.IsPrefix.trans h' h

theorem inPackage_iff {package other : Text} :
    InPackage package other ↔ package = other ∨ other ++ [('.' : CodePoint)] <+: package :=
  Text.split_prefix_iff ('.' : CodePoint)

theorem InPackage.begins {package other : Text} (h : InPackage package other) : other <+: package := by
  rcases inPackage_iff.1 h with rfl | hdot
  · exact List.prefix_rfl
  · exact (List.prefix_append other _).trans hdot

/-- Without the dot at its end, a prefix is the package that it stands for. -/
theorem trimEnd_dot {q : Text} (hq : q.getLast? ≠ some ('.' : CodePoint)) :
    ((q ++ Text.ofString ".").reverse.dropWhile (· = ('.' : CodePoint))).reverse = q := by
  have hreverse : (q ++ Text.ofString ".").reverse = ('.' : CodePoint) :: q.reverse := List.reverse_append
  have hdrop : q.reverse.dropWhile (· = ('.' : CodePoint)) = q.reverse := by
    rw [← List.head?_reverse] at hq
    cases hlast : q.reverse with
    | nil => rfl
    | cons c front =>
      rw [hlast] at hq
      exact List.dropWhile_cons_of_neg fun hc => hq (congrArg some (of_decide_eq_true hc))
  rw [hreverse, List.dropWhile_cons, if_pos (decide_eq_true rfl), hdrop, List.reverse_reverse]

/-- A prefix covers the packages inside the one that it stands for. -/
theorem covers_iff {q package : Text} (hq : q.getLast? ≠ some ('.' : CodePoint)) :
    covers (q ++ ".") package = true ↔ InPackage package q := by
  rw [covers, trimEnd_dot hq, Bool.or_eq_true, List.isPrefixOf_iff_prefix, decide_eq_true_iff, inPackage_iff, or_comm]
  rfl

theorem contains_primitiveNames {t : Text} : primitiveNames.contains (TypeName.element t) = true ↔ IsPrimitive t := by
  have hnames : primitiveNames = keywords.map Text.ofString := rfl
  rw [List.contains_iff_mem, hnames, List.mem_map, IsPrimitive]
  simp only [eq_comm]

theorem isBuiltin_iff {qs : List Text} (hqs : ∀ q ∈ qs, q.getLast? ≠ some ('.' : CodePoint)) {t : Text} :
    isBuiltin (withDots qs) t = true ↔ IsPrimitive t ∨ ∃ q ∈ qs, InPackage (TypeName.package t) q := by
  rw [isBuiltin, Bool.or_eq_true, contains_primitiveNames, List.any_eq_true]
  refine or_congr Iff.rfl ?_
  constructor
  · rintro ⟨pre, hpre, hcovers⟩
    obtain ⟨q, hq, rfl⟩ := List.mem_map.1 hpre
    exact ⟨q, hq, (covers_iff (hqs q hq)).1 hcovers⟩
  · rintro ⟨q, hq, hin⟩
    exact ⟨_, List.mem_map_of_mem hq, (covers_iff (hqs q hq)).2 hin⟩

/-- Primitive types are in no package. -/
theorem package_of_isPrimitive {t : Text} (h : IsPrimitive t) : TypeName.package t = [] := by
  obtain ⟨word, hword, helement⟩ := h
  have hkeywords : (keywords.all fun word => !(Text.ofString word).contains ('.' : CodePoint)) = true := rfl
  have hdot := List.all_eq_true.1 hkeywords word hword
  rcases TypeName.beforeLastDot_package t with ⟨-, hpackage⟩ | ⟨last, -, hname⟩
  · exact hpackage
  · rw [← helement, hname] at hdot
    simp at hdot

/-- A package that goes on with another letter after those of a package is not inside it. -/
theorem not_inPackage {q package : Text} {c : CodePoint} (hc : c ≠ ('.' : CodePoint)) (h : q ++ [c] <+: package) :
    ¬ InPackage package q := by
  intro hin
  rcases inPackage_iff.1 hin with rfl | hdot
  · have hlen := h.length_le
    rw [List.length_append] at hlen
    exact absurd hlen (Nat.not_succ_le_self _)
  · have heq := List.prefix_of_prefix_length_le h hdot (by simp)
    simp [hc] at heq

/-- A list of prefixes covers what another one does if each of the other's prefixes lies inside one of its own. -/
theorem isBuiltin_of_covered {qs qs' : List Text} (hqs : ∀ q ∈ qs, q.getLast? ≠ some ('.' : CodePoint))
    (hqs' : ∀ q ∈ qs', q.getLast? ≠ some ('.' : CodePoint)) (hcovered : ∀ q ∈ qs, ∃ q' ∈ qs', InPackage q q') {t : Text}
    (h : isBuiltin (withDots qs) t = true) : isBuiltin (withDots qs') t = true := by
  rw [isBuiltin_iff hqs] at h
  rw [isBuiltin_iff hqs']
  rcases h with hprimitive | ⟨q, hq, hin⟩
  · exact .inl hprimitive
  · obtain ⟨q', hq', hin'⟩ := hcovered q hq
    exact .inr ⟨q', hq', hin.trans hin'⟩

/-! ### Whole segments -/

/-- Built-in types are told by whole segments. A type is built in if its element type is primitive or `void`, or if its
package lies inside one of those that the prefixes stand for. So a package that begins with the letters of these and goes
on with another letter is not covered, and the packages themselves always are. Lists of which each lies inside the other
cover the same types: prefixes inside others may come, go and change places. -/
theorem builtin_by_segments (qs : List Text) (hqs : ∀ q ∈ qs, q.getLast? ≠ some ('.' : CodePoint)) :
    (∀ t, isBuiltin (withDots qs) t = true ↔ IsPrimitive t ∨ ∃ q ∈ qs, InPackage (TypeName.package t) q) ∧
    (∀ t, TypeName.package t ≠ [] →
      (∀ q ∈ qs, q <+: TypeName.package t → ∃ c, c ≠ ('.' : CodePoint) ∧ q ++ [c] <+: TypeName.package t) →
        isBuiltin (withDots qs) t = false) ∧
    (∀ t, TypeName.package t ∈ qs → isBuiltin (withDots qs) t = true) ∧
    (∀ qs', (∀ q ∈ qs', q.getLast? ≠ some ('.' : CodePoint)) → (∀ q ∈ qs, ∃ q' ∈ qs', InPackage q q') →
      (∀ q' ∈ qs', ∃ q ∈ qs, InPackage q' q) → ∀ t, isBuiltin (withDots qs') t = isBuiltin (withDots qs) t) := by
  refine ⟨fun t => isBuiltin_iff hqs, fun t hne hletters => ?_, fun t hpackage => ?_, fun qs' hqs' hin hin' t => ?_⟩
  · rw [← Bool.not_eq_true, isBuiltin_iff hqs]
    rintro (hprimitive | ⟨q, hq, hin⟩)
    · exact hne (package_of_isPrimitive hprimitive)
    · obtain ⟨c, hc, hletter⟩ := hletters q hq hin.begins
      exact not_inPackage hc hletter hin
  · exact (isBuiltin_iff hqs).2 (.inr ⟨TypeName.package t, hpackage, InPackage.refl _⟩)
  · rw [Bool.eq_iff_iff]
    exact ⟨isBuiltin_of_covered hqs' hqs hin', isBuiltin_of_covered hqs hqs' hin⟩

/-- The packages that come with the platform. -/
def platformPackages : List Text := ["java", "javax", "javafx", "jdk", "sun", "com.sun"]

theorem platformPackages_getLast? : ∀ q ∈ platformPackages, q.getLast? ≠ some ('.' : CodePoint) := by decide

theorem builtin_by_segments_platform :
    platformPrefixes = withDots platformPackages ∧
    isBuiltin (withDots platformPackages) "javalang.Thing" = false ∧
    isBuiltin (withDots platformPackages) "com.sunrise.X[]" = false ∧
    isBuiltin (withDots platformPackages) "java.Thing" = true ∧
    ∀ t, isBuiltin (withDots ("java.util" :: platformPackages)) t = isBuiltin (withDots platformPackages) t := by
  obtain ⟨-, hletters, hpackage, hsame⟩ := builtin_by_segments platformPackages platformPackages_getLast?
  have hjavalang : ∀ q ∈ platformPackages, q <+: TypeName.package "javalang.Thing" →
      q ++ [('l' : CodePoint)] <+: TypeName.package "javalang.Thing" := by decide
  have hsunrise : ∀ q ∈ platformPackages, q <+: TypeName.package "com.sunrise.X[]" →
      q ++ [('r' : CodePoint)] <+: TypeName.package "com.sunrise.X[]" := by decide
  have hutil : InPackage "java.util" "java" := inPackage_iff.2 (.inr (by decide))
  refine ⟨rfl, hletters _ (by decide) fun q hq h => ⟨_, by decide, hjavalang q hq h⟩,
    hletters _ (by decide) fun q hq h => ⟨_, by decide, hsunrise q hq h⟩, hpackage _ (by decide),
    hsame _ (by decide) (fun q hq => ⟨q, List.mem_cons_of_mem _ hq, InPackage.refl q⟩) fun q hq => ?_⟩
  rcases List.mem_cons.1 hq with rfl | hq
  · exact ⟨"java", by decide, hutil⟩
  · exact ⟨q, hq, InPackage.refl q⟩

end Coupling
