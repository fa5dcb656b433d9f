import Coupling.TypeName
import Mathlib.Data.List.TakeWhile

/-!
# Arrays in type names

A type name ends in one `[]` for each array dimension. The element type is what is left without them: it ends in no `[]`
itself, and the same element type is found however many dimensions are added. The package of a type is that of its
element type.
-/

namespace Coupling.TypeName

/-- The end of the name of an array type, by its number of dimensions. -/
def brackets (n : Nat) : Text := (List.replicate n ("[]" : Text)).flatten

@[simp] theorem brackets_zero : brackets 0 = [] := rfl

theorem brackets_succ (n : Nat) : brackets (n + 1) = brackets n ++ "[]" := by
  rw [brackets, List.replicate_succ', List.flatten_append, List.flatten_singleton, brackets]

/-! ### The element type -/

theorem element_append_pair (t : Text) : element (t ++ "[]") = element t := by
  have hreverse : (t ++ Text.ofString "[]").reverse = (']' : CodePoint) :: ('[' : CodePoint) :: t.reverse := by
    rw [List.reverse_append]
    rfl
  rw [element, hreverse, dropBrackets, if_pos ⟨rfl, rfl⟩, element]

/-- However many dimensions are added, the element type stays the same. -/
@[simp] theorem element_append_brackets (t : Text) (n : Nat) : element (t ++ brackets n) = element t := by
  induction n with
  | zero => rw [brackets_zero, List.append_nil]
  | succ n ih => rw [brackets_succ, ← List.append_assoc, element_append_pair, ih]

/-- A name is its element type with some dimensions. -/
theorem exists_brackets (t : Text) : ∃ n, t = element t ++ brackets n := by
  suffices h : ∀ s : Text, ∃ n, s.reverse = (dropBrackets s).reverse ++ brackets n by
    obtain ⟨n, hn⟩ := h t.reverse
    rw [List.reverse_reverse] at hn
    exact ⟨n, hn⟩
  intro s
  fun_induction dropBrackets s with
  | case1 => exact ⟨0, rfl⟩
  | case2 c => exact ⟨0, rfl⟩
  | case3 c d s h ih =>
    obtain ⟨rfl, rfl⟩ := h
    obtain ⟨n, hn⟩ := ih
    refine ⟨n + 1, ?_⟩
    rw [brackets_succ, ← List.append_assoc, ← hn]
    simp [Text.ofString]
  | case4 c d s h => exact ⟨0, by simp⟩

@[simp] theorem element_element (t : Text) : element (element t) = element t := by
  obtain ⟨n, hn⟩ := exists_brackets t
  calc element (element t) = element (element t ++ brackets n) := (element_append_brackets (element t) n).symm
    _ = element t := by rw [← hn]

theorem not_prefix_dropBrackets (s : Text) : ¬ [(']' : CodePoint), ('[' : CodePoint)] <+: dropBrackets s := by
  fun_induction dropBrackets s with
  | case1 => simp
  | case2 c =>
    intro h
    have hlen := h.length_le
    simp at hlen
  | case3 c d s h ih => exact ih
  | case4 c d s h =>
    rintro ⟨rest, hrest⟩
    cases hrest
    exact h ⟨rfl, rfl⟩

/-- The element type is no array. -/
theorem not_suffix_element (t : Text) : ¬ Text.ofString "[]" <:+ element t := by
  rw [← List.reverse_prefix, element, List.reverse_reverse]
  exact not_prefix_dropBrackets t.reverse

/-! ### The package -/

/-- What stands before the last dot of a name, and nothing where there is no dot. -/
def BeforeLastDot (name package : Text) : Prop :=
  ('.' : CodePoint) ∉ name ∧ package = [] ∨ ∃ last, ('.' : CodePoint) ∉ last ∧ name = package ++ ('.' : CodePoint) :: last

theorem beforeLastDot_package (t : Text) : BeforeLastDot (element t) (package t) := by
  have hname := congrArg List.reverse
    (List.takeWhile_append_dropWhile (p := (· ≠ ('.' : CodePoint))) (l := (element t).reverse))
  have hlast : ('.' : CodePoint) ∉ (element t).reverse.takeWhile (· ≠ ('.' : CodePoint)) := by
    intro hmem
    have hne := List.mem_takeWhile_imp hmem
    simp at hne
  rw [List.reverse_append, List.reverse_reverse] at hname
  rw [package]
  cases hdrop : (element t).reverse.dropWhile (· ≠ ('.' : CodePoint)) with
  | nil =>
    rw [hdrop, List.reverse_nil, List.nil_append] at hname
    rw [← List.mem_reverse, hname] at hlast
    exact .inl ⟨hlast, rfl⟩
  | cons c front =>
    have hdot := List.head?_dropWhile_not (· ≠ ('.' : CodePoint)) (element t).reverse
    rw [hdrop] at hname hdot
    obtain rfl : c = ('.' : CodePoint) := by simpa using hdot
    rw [← List.mem_reverse] at hlast
    rw [List.reverse_cons, List.append_assoc] at hname
    exact .inr ⟨_, hlast, hname.symm⟩

@[simp] theorem package_element (t : Text) : package (element t) = package t := by
  rw [package, element_element, package]

@[simp] theorem package_append_brackets (t : Text) (n : Nat) : package (t ++ brackets n) = package t := by
  rw [package, element_append_brackets, package]

end Coupling.TypeName
