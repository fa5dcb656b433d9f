/-!
# Finite sets in increasing order

A set of names is kept as the list of its members in increasing order. Two such sets are equal when they have the same
members, so nothing that is built from them depends on the order in which members came.
-/

namespace Coupling

/-- A finite set, as the strictly increasing list of its members. -/
structure SortedSet (α : Type) [LT α] where
  /-- The members, in increasing order. -/
  toList : List α
  /-- No member comes twice, and each is below those after it. -/
  increasing : toList.Pairwise (· < ·)
  deriving DecidableEq

namespace SortedSet

variable {α : Type} [LT α]

/-- No members. -/
def empty : SortedSet α := ⟨[], .nil⟩

instance : EmptyCollection (SortedSet α) := ⟨empty⟩

instance : Inhabited (SortedSet α) := ⟨empty⟩

instance : Membership α (SortedSet α) := ⟨fun s a => a ∈ s.toList⟩

instance [DecidableEq α] (a : α) (s : SortedSet α) : Decidable (a ∈ s) :=
  inferInstanceAs (Decidable (a ∈ s.toList))

@[simp] theorem mem_toList {a : α} {s : SortedSet α} : a ∈ s.toList ↔ a ∈ s := Iff.rfl

@[simp] theorem not_mem_empty (a : α) : a ∉ (∅ : SortedSet α) := List.not_mem_nil

/-- The number of members. -/
def size (s : SortedSet α) : Nat := s.toList.length

/-- The members that satisfy a condition. -/
def filter (p : α → Bool) (s : SortedSet α) : SortedSet α := ⟨s.toList.filter p, s.increasing.filter p⟩

@[simp] theorem mem_filter {p : α → Bool} {a : α} {s : SortedSet α} : a ∈ s.filter p ↔ a ∈ s ∧ p a = true :=
  List.mem_filter

/-! ### Extensionality -/

section Extensionality

variable [LE α] [Std.IsLinearOrder α] [Std.LawfulOrderLT α]

theorem eq_of_increasing {l l' : List α} (h : l.Pairwise (· < ·)) (h' : l'.Pairwise (· < ·))
    (hmem : ∀ x, x ∈ l ↔ x ∈ l') : l = l' := by
  induction l generalizing l' with
  | nil => exact (List.eq_nil_iff_forall_not_mem.2 fun x hx => List.not_mem_nil ((hmem x).2 hx)).symm
  | cons a l ih =>
    cases l' with
    | nil => exact absurd ((hmem a).1 List.mem_cons_self) List.not_mem_nil
    | cons b l' =>
      rw [List.pairwise_cons] at h h'
      -- The heads are the least members, and below all others.
      have hab : a = b := by
        rcases List.mem_cons.1 ((hmem a).1 List.mem_cons_self) with hab | ha
        · exact hab
        · rcases List.mem_cons.1 ((hmem b).2 List.mem_cons_self) with hba | hb
          · exact hba.symm
          · exact absurd (Std.lt_trans (h'.1 a ha) (h.1 b hb)) Std.lt_irrefl
      subst hab
      refine congrArg (a :: ·) (ih h.2 h'.2 fun x => ⟨fun hx => ?_, fun hx => ?_⟩)
      · rcases List.mem_cons.1 ((hmem x).1 (List.mem_cons_of_mem a hx)) with rfl | hx'
        · exact absurd (h.1 x hx) Std.lt_irrefl
        · exact hx'
      · rcases List.mem_cons.1 ((hmem x).2 (List.mem_cons_of_mem a hx)) with rfl | hx'
        · exact absurd (h'.1 x hx) Std.lt_irrefl
        · exact hx'

/-- Sets with the same members are equal. -/
theorem ext {s t : SortedSet α} (h : ∀ x, x ∈ s ↔ x ∈ t) : s = t := by
  obtain ⟨l, hl⟩ := s
  obtain ⟨l', hl'⟩ := t
  obtain rfl : l = l' := eq_of_increasing hl hl' h
  rfl

end Extensionality

/-! ### Insertion -/

section Insertion

variable [DecidableLT α]

/-- Puts a member in front of the first larger one. A list in increasing order stays so. -/
def insertList (a : α) : List α → List α
  | [] => [a]
  | b :: l => if a < b then a :: b :: l else if b < a then b :: insertList a l else b :: l

variable [LE α] [Std.IsLinearOrder α] [Std.LawfulOrderLT α]

theorem mem_insertList {a x : α} {l : List α} : x ∈ insertList a l ↔ x = a ∨ x ∈ l := by
  induction l with
  | nil => simp [insertList]
  | cons b l ih =>
    rw [insertList]
    split
    · simp
    · split
      · simp only [List.mem_cons, ih]
        exact ⟨fun h => h.elim (fun h => .inr (.inl h)) (fun h => h.elim .inl (fun h => .inr (.inr h))),
          fun h => h.elim (fun h => .inr (.inl h)) (fun h => h.elim .inl (fun h => .inr (.inr h)))⟩
      · next h h' =>
        have hab : a = b := Std.le_antisymm (Std.not_lt.1 h') (Std.not_lt.1 h)
        subst hab
        simp

theorem insertList_increasing {a : α} {l : List α} (h : l.Pairwise (· < ·)) : (insertList a l).Pairwise (· < ·) := by
  induction l with
  | nil => simp [insertList]
  | cons b l ih =>
    rw [List.pairwise_cons] at h
    rw [insertList]
    split
    · next hab =>
      refine List.Pairwise.cons (fun x hx => ?_) (List.Pairwise.cons h.1 h.2)
      rcases List.mem_cons.1 hx with rfl | hx
      · exact hab
      · exact Std.lt_trans hab (h.1 x hx)
    · split
      · next hba =>
        refine List.Pairwise.cons (fun x hx => ?_) (ih h.2)
        rcases mem_insertList.1 hx with rfl | hx
        · exact hba
        · exact h.1 x hx
      · exact List.Pairwise.cons h.1 h.2

/-- One more member. -/
def insert (a : α) (s : SortedSet α) : SortedSet α := ⟨insertList a s.toList, insertList_increasing s.increasing⟩

@[simp] theorem mem_insert {a x : α} {s : SortedSet α} : x ∈ s.insert a ↔ x = a ∨ x ∈ s := mem_insertList

/-- The members of a list. -/
def ofList (l : List α) : SortedSet α := l.foldr insert ∅

@[simp] theorem mem_ofList {x : α} {l : List α} : x ∈ ofList l ↔ x ∈ l := by
  induction l with
  | nil => simp [ofList]
  | cons a l ih =>
    rw [ofList, List.foldr_cons, mem_insert, List.mem_cons]
    exact or_congr Iff.rfl ih

/-- The members of either set. -/
def union (s t : SortedSet α) : SortedSet α := s.toList.foldr insert t

@[simp] theorem mem_union {x : α} {s t : SortedSet α} : x ∈ s.union t ↔ x ∈ s ∨ x ∈ t := by
  have aux : ∀ l : List α, x ∈ l.foldr insert t ↔ x ∈ l ∨ x ∈ t := by
    intro l
    induction l with
    | nil => simp
    | cons a l ih => rw [List.foldr_cons, mem_insert, ih, List.mem_cons, or_assoc]
  exact aux s.toList

end Insertion

end SortedSet

end Coupling
