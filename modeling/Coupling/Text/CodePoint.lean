/-!
# Code points and texts

The names in a compiled class may hold half of a surrogate pair on its own, and no `String` can hold that. A `Text` is
therefore a list of code points, surrogates included, and every `String` is one. Texts are ordered by their code
points, first difference first, which is the order of all sorted output.
-/

namespace Coupling

/-- A Unicode code point, surrogates included. -/
structure CodePoint where
  /-- The number of the code point. -/
  val : Nat
  /-- The code space ends at `10FFFF`. -/
  isLt : val < 0x110000
  deriving DecidableEq, Hashable

namespace CodePoint

/-- The code point of a character. -/
def ofChar (c : Char) : CodePoint :=
  ⟨c.toNat, by
    have h := c.valid
    simp only [UInt32.isValidChar, Nat.isValidChar] at h
    simp only [Char.toNat]
    omega⟩

instance : Coe Char CodePoint := ⟨ofChar⟩

@[simp] theorem ofChar_inj {a b : Char} : ofChar a = ofChar b ↔ a = b := by
  constructor
  · intro h
    exact Char.toNat_inj.1 (congrArg val h)
  · intro h
    rw [h]

/-- The code point of a number; the replacement character stands for numbers beyond the code space. -/
def ofNat (n : Nat) : CodePoint := if h : n < 0x110000 then ⟨n, h⟩ else ⟨0xFFFD, by decide⟩

instance : Inhabited CodePoint := ⟨ofChar ' '⟩

/-- The first half of a surrogate pair. -/
def IsHigh (c : CodePoint) : Prop := 0xD800 ≤ c.val ∧ c.val ≤ 0xDBFF

/-- The second half of a surrogate pair. -/
def IsLow (c : CodePoint) : Prop := 0xDC00 ≤ c.val ∧ c.val ≤ 0xDFFF

instance (c : CodePoint) : Decidable c.IsHigh := inferInstanceAs (Decidable (_ ∧ _))

instance (c : CodePoint) : Decidable c.IsLow := inferInstanceAs (Decidable (_ ∧ _))

/-- The character of a code point; half a surrogate pair has none. -/
def toChar? (c : CodePoint) : Option Char :=
  if h : c.val.isValidChar then some (Char.ofNatAux c.val h) else none

/-! ### Order -/

instance : LT CodePoint := ⟨fun a b => a.val < b.val⟩

instance : LE CodePoint := ⟨fun a b => a.val ≤ b.val⟩

instance : DecidableLT CodePoint := fun a b => inferInstanceAs (Decidable (a.val < b.val))

instance : DecidableLE CodePoint := fun a b => inferInstanceAs (Decidable (a.val ≤ b.val))

theorem ext_val {a b : CodePoint} (h : a.val = b.val) : a = b := by
  cases a
  cases b
  simp_all

instance : Std.IsLinearOrder CodePoint where
  le_refl a := Nat.le_refl a.val
  le_trans _ _ _ := Nat.le_trans
  le_antisymm _ _ h h' := ext_val (Nat.le_antisymm h h')
  le_total a b := Nat.le_total a.val b.val

instance : Std.LawfulOrderLT CodePoint where
  lt_iff _ _ := Nat.lt_iff_le_and_not_ge

end CodePoint

/-- A text: a list of code points. -/
abbrev Text := List CodePoint

namespace Text

/-- The text of a string. -/
def ofString (s : String) : Text := s.toList.map CodePoint.ofChar

instance : Coe String Text := ⟨ofString⟩

instance : Std.LawfulOrderLT Text := inferInstance

instance : LawfulBEq Text := inferInstance

/-- The decimal digits of a number. -/
def ofNat (n : Nat) : Text := toString n

end Text

end Coupling
