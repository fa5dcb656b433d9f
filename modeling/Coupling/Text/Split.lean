import Coupling.Text.CodePoint

/-!
# Texts made of parts

Package names are segments with dots between them, paths are components with slashes between them, and files are lines
with breaks between them. Splitting at a code point and joining with it are inverse to each other, as long as no part
holds that code point.
-/

namespace Coupling.Text

/-- The parts of a list between the places where an item stands. There is always at least one. -/
def split {α : Type} [DecidableEq α] (sep : α) : List α → List (List α)
  | [] => [[]]
  | c :: t =>
    if c = sep then [] :: split sep t
    else
      match split sep t with
      | [] => [[c]]
      | part :: parts => (c :: part) :: parts

/-- Parts with a text between each two of them. -/
def join (sep : Text) (parts : List Text) : Text := sep.intercalate parts

/-- A text without the blanks at its end. -/
def trimEnd (isBlank : CodePoint → Bool) (t : Text) : Text := (t.reverse.dropWhile isBlank).reverse

/-- A text without the blanks at either end. -/
def trim (isBlank : CodePoint → Bool) (t : Text) : Text := trimEnd isBlank (t.dropWhile isBlank)

theorem split_ne_nil {α : Type} [DecidableEq α] (sep : α) (t : List α) : split sep t ≠ [] := by
  cases t with
  | nil => simp [split]
  | cons c t =>
    rw [split]
    split
    · simp
    · split <;> simp

/-- The parts do not hold the item that they stand between. -/
theorem not_mem_of_mem_split {α : Type} [DecidableEq α] {sep : α} {t part : List α} (h : part ∈ split sep t) :
    sep ∉ part := by
  induction t generalizing part with
  | nil =>
    rw [split, List.mem_singleton] at h
    rw [h]
    exact List.not_mem_nil
  | cons c t ih =>
    rw [split] at h
    split at h
    · rcases List.mem_cons.1 h with rfl | h
      · exact List.not_mem_nil
      · exact ih h
    · next hc =>
      cases hsplit : split sep t with
      | nil => exact absurd hsplit (split_ne_nil sep t)
      | cons first parts =>
        rw [hsplit] at h ih
        rcases List.mem_cons.1 h with rfl | h
        · exact fun hmem => (List.mem_cons.1 hmem).elim (fun heq => hc heq.symm) (ih List.mem_cons_self)
        · exact ih (List.mem_cons_of_mem first h)

end Coupling.Text
