import Coupling.ClassFile.Pool
import Coupling.Proofs.Descriptors

/-!
# What an index leads to

An index into the constant pool leads to a text, to the class whose name is such a text, or to the class that owns a field
or a method. These are relations: an index leads to at most one name of each kind, and possibly to none. The lookups find
a name exactly when there is one.
-/

namespace Coupling.ClassFile.Pool

open Descriptor (IsEntryName)

variable {p : Pool} {index : Nat}

/-- A slot that holds a constant. Slot zero is never one. -/
def Holds (p : Pool) (index : Nat) (c : Constant) : Prop := 0 < index ∧ p.slots[index]? = some (some c)

/-- An index that leads to a text. -/
def HasText (p : Pool) (index : Nat) (text : Text) : Prop := ∃ raw, p.Holds index (.utf8 raw text)

/-- An index that leads to a class. -/
def HasClass (p : Pool) (index : Nat) (name : Text) : Prop :=
  ∃ nameIndex text, p.Holds index (.classRef nameIndex) ∧ p.HasText nameIndex text ∧ IsEntryName text name

/-- An index that leads to a field or a method of a class. -/
def HasMember (p : Pool) (index : Nat) (owner : Text) : Prop :=
  ∃ kind classIndex nameAndTypeIndex, p.Holds index (.memberRef kind classIndex nameAndTypeIndex) ∧
    p.HasClass classIndex owner

theorem Holds.unique {c d : Constant} (h : p.Holds index c) (h' : p.Holds index d) : c = d := by
  have := h.2.symm.trans h'.2
  simpa using this

theorem entry_eq_ok {wanted : Wanted} {c : Constant} : p.entry index wanted = .ok c ↔ p.Holds index c := by
  unfold entry Holds
  by_cases hindex : 0 < index
  · rw [if_neg (by omega), Int.toNat_natCast]
    split
    · next hslot => simp [hslot]
    · next hslot => simp [hslot]
    · next d hslot => simp [hslot, hindex]
  · rw [if_pos (by omega)]
    simp [hindex]

theorem utf8_eq_ok {text : Text} : p.utf8 index = .ok text ↔ p.HasText index text := by
  unfold utf8
  constructor
  · intro h
    cases hentry : p.entry index .utf8 with
    | error f =>
      rw [hentry] at h
      cases h
    | ok c =>
      rw [hentry] at h
      cases c with
      | utf8 raw t =>
        cases h
        exact ⟨raw, entry_eq_ok.1 hentry⟩
      | classRef => cases h
      | memberRef => cases h
      | uninterpreted => cases h
  · rintro ⟨raw, hholds⟩
    rw [entry_eq_ok.2 hholds]
    rfl

theorem className_eq_ok {name : Text} : p.className index = .ok name ↔ p.HasClass index name := by
  unfold className
  constructor
  · intro h
    cases hentry : p.entry index .classRef with
    | error f =>
      rw [hentry] at h
      cases h
    | ok c =>
      rw [hentry] at h
      cases c with
      | classRef nameIndex =>
        cases htext : p.utf8 nameIndex with
        | error f => simp [htext, bind, Except.bind] at h
        | ok text =>
          cases hname : Descriptor.entryName text with
          | error f => simp [htext, hname, bind, Except.bind, throw, throwThe, MonadExceptOf.throw] at h
          | ok n =>
            simp only [htext, hname, bind, Except.bind] at h
            cases h
            exact ⟨nameIndex, text, entry_eq_ok.1 hentry, utf8_eq_ok.1 htext, Descriptor.entryName_eq_ok.1 hname⟩
      | utf8 => cases h
      | memberRef => cases h
      | uninterpreted => cases h
  · rintro ⟨nameIndex, text, hholds, htext, hname⟩
    rw [entry_eq_ok.2 hholds]
    simp only [bind, Except.bind, utf8_eq_ok.2 htext, Descriptor.entryName_eq_ok.2 hname]
    rfl

theorem memberOwner_eq_ok {owner : Text} : p.memberOwner index = .ok owner ↔ p.HasMember index owner := by
  unfold memberOwner
  constructor
  · intro h
    cases hentry : p.entry index .memberRef with
    | error f =>
      rw [hentry] at h
      cases h
    | ok c =>
      rw [hentry] at h
      cases c with
      | memberRef kind classIndex other =>
        exact ⟨kind, classIndex, other, entry_eq_ok.1 hentry, className_eq_ok.1 h⟩
      | utf8 => cases h
      | classRef => cases h
      | uninterpreted => cases h
  · rintro ⟨kind, classIndex, other, hholds, hclass⟩
    rw [entry_eq_ok.2 hholds]
    exact className_eq_ok.2 hclass

/-- At most one name is looked up. -/
theorem HasText.unique {t u : Text} (h : p.HasText index t) (h' : p.HasText index u) : t = u :=
  Except.ok.inj ((utf8_eq_ok.2 h).symm.trans (utf8_eq_ok.2 h'))

theorem HasClass.unique {t u : Text} (h : p.HasClass index t) (h' : p.HasClass index u) : t = u :=
  Except.ok.inj ((className_eq_ok.2 h).symm.trans (className_eq_ok.2 h'))

theorem HasMember.unique {t u : Text} (h : p.HasMember index t) (h' : p.HasMember index u) : t = u :=
  Except.ok.inj ((memberOwner_eq_ok.2 h).symm.trans (memberOwner_eq_ok.2 h'))

/-- An index leads to one text, or to none. -/
theorem utf8_cases (p : Pool) (index : Nat) :
    (∃ text, p.utf8 index = .ok text ∧ ∀ u, p.HasText index u ↔ u = text) ∨
      (∃ f, p.utf8 index = .error f ∧ ∀ u, ¬ p.HasText index u) := by
  cases h : p.utf8 index with
  | ok text =>
    refine .inl ⟨text, rfl, fun u => ⟨fun hu => hu.unique (utf8_eq_ok.1 h), ?_⟩⟩
    rintro rfl
    exact utf8_eq_ok.1 h
  | error f =>
    refine .inr ⟨f, rfl, fun u hu => ?_⟩
    rw [utf8_eq_ok.2 hu] at h
    cases h

/-- What a lookup comes to, when a failure counts as nothing. -/
theorem toOption_utf8_eq_some {text : Text} : (p.utf8 index).toOption = some text ↔ p.HasText index text := by
  rw [← utf8_eq_ok]
  cases p.utf8 index <;> simp [Except.toOption]

end Coupling.ClassFile.Pool
