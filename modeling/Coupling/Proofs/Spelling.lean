import Coupling.ClassFile.ModifiedUtf8
import Mathlib.Tactic.SplitIfs

/-!
# How texts are spelled in class files

A code point takes one to four bytes, by its size, and surrogates take three like their neighbours; the code point zero
has a second form, `C0 80`. A spelling is a row of such forms, and it stands for the code points in it, each high
surrogate joined with the low one after it. Reading accepts exactly the spellings.
-/

namespace Coupling.ModifiedUtf8

open Utf8 (IsContinuation tail? width leadBits continuation)

/-- A byte that carries six more bits, by its number. -/
def IsMore (b : UInt8) : Prop := 0x80 ≤ b.toNat ∧ b.toNat ≤ 0xBF

/-- A form of a code point that is also its form in UTF-8, except that surrogates have one. -/
inductive IsPlain : List UInt8 → CodePoint → Prop where
  /-- One byte. -/
  | one {a : UInt8} {c : CodePoint} : a.toNat < 0x80 → c.val = a.toNat → IsPlain [a] c
  /-- Two bytes. The leads `C0` and `C1` would be longer than needed. -/
  | two {a b : UInt8} {c : CodePoint} : 0xC2 ≤ a.toNat → a.toNat ≤ 0xDF → IsMore b →
    c.val = 64 * (a.toNat - 0xC0) + (b.toNat - 0x80) → IsPlain [a, b] c
  /-- Three bytes, no more than needed. -/
  | three {a b d : UInt8} {c : CodePoint} : 0xE0 ≤ a.toNat → a.toNat ≤ 0xEF → IsMore b → IsMore d →
    (a.toNat = 0xE0 → 0xA0 ≤ b.toNat) →
    c.val = 64 * (64 * (a.toNat - 0xE0) + (b.toNat - 0x80)) + (d.toNat - 0x80) → IsPlain [a, b, d] c
  /-- Four bytes, no more than needed, up to the end of the code space. -/
  | four {a b d e : UInt8} {c : CodePoint} : 0xF0 ≤ a.toNat → a.toNat ≤ 0xF4 → IsMore b → IsMore d → IsMore e →
    (a.toNat = 0xF0 → 0x90 ≤ b.toNat) → (a.toNat = 0xF4 → b.toNat ≤ 0x8F) →
    c.val = 64 * (64 * (64 * (a.toNat - 0xF0) + (b.toNat - 0x80)) + (d.toNat - 0x80)) + (e.toNat - 0x80) →
    IsPlain [a, b, d, e] c

/-- A form of a code point. -/
def IsForm (form : List UInt8) (c : CodePoint) : Prop := IsPlain form c ∨ form = [0xC0, 0x80] ∧ c.val = 0

/-- A row of forms of given kinds, and the code points that they stand for. -/
inductive Row (form : List UInt8 → CodePoint → Prop) : List UInt8 → Text → Prop where
  /-- Nothing stands for nothing. -/
  | nil : Row form [] []
  /-- One more form in front. -/
  | cons {first bytes : List UInt8} {c : CodePoint} {points : Text} :
    form first c → Row form bytes points → Row form (first ++ bytes) (c :: points)

/-- A spelling of a text. -/
def Spells (raw : List UInt8) (text : Text) : Prop := ∃ points, Row IsForm raw points ∧ text = joinPairs points

/-! ### One code point -/

theorem val_ofNat {n : Nat} (h : n < 0x110000) : (CodePoint.ofNat n).val = n := by
  rw [CodePoint.ofNat, dif_pos h]

theorem ofNat_of_val {n : Nat} {c : CodePoint} (h : c.val = n) : CodePoint.ofNat n = c := by
  subst h
  exact CodePoint.ext_val (val_ofNat c.isLt)

/-- What the lead bytes of longer forms ask for. -/
theorem tail?_eq_some {a low high : UInt8} {n : Nat} (h : tail? a = some (n, low, high)) :
    0x80 ≤ low.toNat ∧ high.toNat ≤ 0xBF ∧
      (n = 1 ∧ 0xC2 ≤ a.toNat ∧ a.toNat ≤ 0xDF ∨
       n = 2 ∧ 0xE0 ≤ a.toNat ∧ a.toNat ≤ 0xEF ∧ (a.toNat = 0xE0 → 0xA0 ≤ low.toNat) ∨
       n = 3 ∧ 0xF0 ≤ a.toNat ∧ a.toNat ≤ 0xF4 ∧ (a.toNat = 0xF0 → 0x90 ≤ low.toNat) ∧
        (a.toNat = 0xF4 → high.toNat ≤ 0x8F)) := by
  simp only [tail?, UInt8.le_iff_toNat_le, ← UInt8.toNat_inj, UInt8.reduceToNat] at h
  split_ifs at h <;> cases h <;> grind

theorem continuation_zero_eq_ok {low high : UInt8} {bits v : Nat} {s r : List UInt8} :
    continuation 0 low high bits s = .ok (v, r) ↔ v = bits ∧ r = s := by
  simp only [continuation, Except.ok.injEq, Prod.mk.injEq, eq_comm]

theorem continuation_succ_eq_ok {n : Nat} {low high : UInt8} {bits v : Nat} {s r : List UInt8} :
    continuation (n + 1) low high bits s = .ok (v, r) ↔
      ∃ b s', s = b :: s' ∧ low.toNat ≤ b.toNat ∧ b.toNat ≤ high.toNat ∧
        continuation n 0x80 0xBF (64 * bits + b.toNat % 64) s' = .ok (v, r) := by
  cases s with
  | nil => simp [continuation]
  | cons b s =>
    rw [continuation]
    constructor
    · intro h
      split at h
      · next hb =>
        split at h
        · next heq => exact ⟨b, s, rfl, hb.1, hb.2, heq.trans h⟩
        · cases h
      · cases h
    · rintro ⟨b', s', heq, hb, hb', h⟩
      cases heq
      rw [if_pos ⟨hb, hb'⟩, h]

theorem surrogate?_eq_some {s r : List UInt8} {c : CodePoint} :
    surrogate? s = some (c, r) ↔ ∃ b d, s = b :: d :: r ∧ 0xA0 ≤ b.toNat ∧ b.toNat ≤ 0xBF ∧ IsMore d ∧
      c = CodePoint.ofNat (0xD000 + 64 * (b.toNat % 64) + d.toNat % 64) := by
  constructor
  · intro h
    unfold surrogate? at h
    split at h
    · next b d r' =>
      split at h
      · next hb =>
        cases h
        exact ⟨b, d, rfl, hb.1, hb.2.1, hb.2.2, rfl⟩
      · cases h
    · cases h
  · rintro ⟨b, d, rfl, hb, hb', hd, rfl⟩
    rw [surrogate?, if_pos ⟨hb, hb', hd⟩]

theorem isPlain_of_surrogate? {s r : List UInt8} {c : CodePoint} (h : surrogate? s = some (c, r)) :
    ∃ form, IsPlain form c ∧ 0xED :: s = form ++ r := by
  obtain ⟨b, d, rfl, hb, hb', hd, rfl⟩ := surrogate?_eq_some.1 h
  obtain ⟨hd₁, hd₂⟩ := hd
  refine ⟨[0xED, b, d], .three (by decide) (by decide) ⟨by omega, hb'⟩ ⟨hd₁, hd₂⟩ (fun _ => hb) ?_, rfl⟩
  rw [val_ofNat (by omega)]
  simp only [UInt8.reduceToNat]
  omega

/-- A lead byte and the continuation bytes that it asks for make a plain form. -/
theorem isPlain_of_continuation {a low high : UInt8} {n bits : Nat} {s r : List UInt8}
    (htail : tail? a = some (n, low, high)) (hcont : continuation n low high (leadBits a n) s = .ok (bits, r)) :
    ∃ form, IsPlain form (CodePoint.ofNat bits) ∧ a :: s = form ++ r := by
  obtain ⟨hlow, hhigh, ⟨rfl, ha⟩ | ⟨rfl, ha⟩ | ⟨rfl, ha⟩⟩ := tail?_eq_some htail
  · obtain ⟨b, s, rfl, hb, hb', hcont⟩ := continuation_succ_eq_ok.1 hcont
    obtain ⟨rfl, rfl⟩ := continuation_zero_eq_ok.1 hcont
    refine ⟨[a, b], .two ha.1 ha.2 ⟨by omega, by omega⟩ ?_, rfl⟩
    rw [leadBits, Nat.pow_eq, val_ofNat (by omega)]
    omega
  · obtain ⟨b, s, rfl, hb, hb', hcont⟩ := continuation_succ_eq_ok.1 hcont
    obtain ⟨d, s, rfl, hd, hd', hcont⟩ := continuation_succ_eq_ok.1 hcont
    obtain ⟨rfl, rfl⟩ := continuation_zero_eq_ok.1 hcont
    simp only [UInt8.reduceToNat] at hd hd'
    refine ⟨[a, b, d], .three ha.1 ha.2.1 ⟨by omega, by omega⟩ ⟨hd, hd'⟩ (by omega) ?_, rfl⟩
    rw [leadBits, Nat.pow_eq, val_ofNat (by omega)]
    omega
  · obtain ⟨b, s, rfl, hb, hb', hcont⟩ := continuation_succ_eq_ok.1 hcont
    obtain ⟨d, s, rfl, hd, hd', hcont⟩ := continuation_succ_eq_ok.1 hcont
    obtain ⟨e, s, rfl, he, he', hcont⟩ := continuation_succ_eq_ok.1 hcont
    obtain ⟨rfl, rfl⟩ := continuation_zero_eq_ok.1 hcont
    simp only [UInt8.reduceToNat] at hd hd' he he'
    refine ⟨[a, b, d, e], .four ha.1 ha.2.1 ⟨by omega, by omega⟩ ⟨hd, hd'⟩ ⟨he, he'⟩ (by omega) (by omega) ?_, rfl⟩
    rw [leadBits, Nat.pow_eq, val_ofNat (by omega)]
    omega

theorem isPlain_of_utf8 {a : UInt8} {s r : List UInt8} {c : CodePoint}
    (h : Utf8.afterLead CodePoint.ofNat a s = .ok (c, r)) : ∃ form, IsPlain form c ∧ a :: s = form ++ r := by
  unfold Utf8.afterLead at h
  split at h
  · next ha =>
    cases h
    have ha : a.toNat < 0x80 := ha
    exact ⟨[a], .one ha (val_ofNat (by omega)), rfl⟩
  · split at h
    · cases h
    · next htail =>
      split at h
      · next hcont =>
        cases h
        exact isPlain_of_continuation htail hcont
      · cases h

/-- What is read from the front of bytes is a plain form. -/
theorem isPlain_of_afterLead {a : UInt8} {s r : List UInt8} {c : CodePoint} (h : afterLead a s = .ok (c, r)) :
    ∃ form, IsPlain form c ∧ a :: s = form ++ r := by
  unfold afterLead at h
  split at h
  · next p hsome =>
    cases h
    split at hsome
    · next ha =>
      subst ha
      exact isPlain_of_surrogate? hsome
    · cases hsome
  · exact isPlain_of_utf8 h

theorem tail?_two {a : UInt8} (h : 0xC2 ≤ a.toNat) (h' : a.toNat ≤ 0xDF) : tail? a = some (1, 0x80, 0xBF) := by
  rw [tail?, if_pos ⟨h, h'⟩]

theorem tail?_three {a : UInt8} (h : 0xE0 ≤ a.toNat) (h' : a.toNat ≤ 0xEF) :
    tail? a = some (2, if a = 0xE0 then 0xA0 else 0x80, if a = 0xED then 0x9F else 0xBF) := by
  simp only [tail?, UInt8.le_iff_toNat_le, ← UInt8.toNat_inj, UInt8.reduceToNat]
  grind

theorem tail?_four {a : UInt8} (h : 0xF0 ≤ a.toNat) (h' : a.toNat ≤ 0xF4) :
    tail? a = some (3, if a = 0xF0 then 0x90 else 0x80, if a = 0xF4 then 0x8F else 0xBF) := by
  simp only [tail?, UInt8.le_iff_toNat_le, ← UInt8.toNat_inj, UInt8.reduceToNat]
  grind

/-- What does not begin with a surrogate is read as in UTF-8. -/
theorem afterLead_eq_utf8 {a : UInt8} {s : List UInt8} (h : a = 0xED → surrogate? s = none) :
    afterLead a s = Utf8.afterLead CodePoint.ofNat a s := by
  have hnone : (if a = 0xED then surrogate? s else none) = none := by
    split
    · next ha => exact h ha
    · rfl
  rw [afterLead, hnone]

/-- A lead byte that asks for more is read with the continuation bytes after it. -/
theorem afterLead_of_continuation {a low high : UInt8} {n bits : Nat} {s r : List UInt8} {c : CodePoint}
    (ha : 0x80 ≤ a.toNat) (hsurrogate : a = 0xED → surrogate? s = none) (htail : tail? a = some (n, low, high))
    (hcont : continuation n low high (leadBits a n) s = .ok (bits, r)) (hc : c.val = bits) :
    afterLead a s = .ok (c, r) := by
  have hlead : ¬ a < 0x80 := fun h => absurd (UInt8.lt_iff_toNat_lt.1 h) (Nat.not_lt.2 ha)
  rw [afterLead_eq_utf8 hsurrogate, Utf8.afterLead, if_neg hlead]
  simp only [htail, hcont, ofNat_of_val hc]

theorem afterLead_surrogate {b d : UInt8} {c : CodePoint} (hb : 0xA0 ≤ b.toNat) (hb' : b.toNat ≤ 0xBF) (hd : IsMore d)
    (hc : c.val = 64 * (64 * 0x0D + (b.toNat - 0x80)) + (d.toNat - 0x80)) (r : List UInt8) :
    afterLead 0xED (b :: d :: r) = .ok (c, r) := by
  obtain ⟨hd₁, hd₂⟩ := hd
  have hval : c.val = 0xD000 + 64 * (b.toNat % 64) + d.toNat % 64 := by omega
  have hsome : surrogate? (b :: d :: r) = some (c, r) :=
    surrogate?_eq_some.2 ⟨b, d, rfl, hb, hb', ⟨hd₁, hd₂⟩, (ofNat_of_val hval).symm⟩
  rw [afterLead, if_pos rfl, hsome]

theorem afterLead_three {a b d : UInt8} {c : CodePoint} (ha : 0xE0 ≤ a.toNat) (ha' : a.toNat ≤ 0xEF) (hb : IsMore b)
    (hd : IsMore d) (hab : a.toNat = 0xE0 → 0xA0 ≤ b.toNat) (hsurrogate : a = 0xED → b.toNat < 0xA0)
    (hc : c.val = 64 * (64 * (a.toNat - 0xE0) + (b.toNat - 0x80)) + (d.toNat - 0x80)) (r : List UInt8) :
    afterLead a (b :: d :: r) = .ok (c, r) := by
  obtain ⟨hb₁, hb₂⟩ := hb
  obtain ⟨hd₁, hd₂⟩ := hd
  refine afterLead_of_continuation (by omega) (fun h => ?_) (tail?_three ha ha')
    (continuation_succ_eq_ok.2 ⟨b, d :: r, rfl, ?_, ?_, continuation_succ_eq_ok.2 ⟨d, r, rfl, hd₁, hd₂,
      continuation_zero_eq_ok.2 ⟨rfl, rfl⟩⟩⟩) ?_
  · have hlow : ¬ 0xA0 ≤ b := Nat.not_le.2 (hsurrogate h)
    simp only [surrogate?, hlow, false_and, if_false]
  · split
    · next h => exact hab (h ▸ rfl)
    · exact hb₁
  · split
    · next h => exact Nat.le_of_lt_succ (hsurrogate h)
    · exact hb₂
  · rw [hc, leadBits, Nat.pow_eq]
    omega

/-- A plain form in front of bytes is read. -/
theorem afterLead_of_isPlain {form : List UInt8} {c : CodePoint} (h : IsPlain form c) :
    ∃ a more, form = a :: more ∧ ∀ r, afterLead a (more ++ r) = .ok (c, r) := by
  cases h with
  | @one a _ ha hc =>
    refine ⟨a, [], rfl, fun r => ?_⟩
    have hsurrogate : a = 0xED → surrogate? ([] ++ r) = none := by
      rintro rfl
      exact absurd ha (by decide)
    rw [afterLead_eq_utf8 hsurrogate, Utf8.afterLead, if_pos (UInt8.lt_iff_toNat_lt.2 ha), ofNat_of_val hc]
    rfl
  | @two a b _ ha ha' hb hc =>
    refine ⟨a, [b], rfl, fun r => ?_⟩
    refine afterLead_of_continuation (by omega) (fun h => ?_) (tail?_two ha ha')
      (continuation_succ_eq_ok.2 ⟨b, r, rfl, hb.1, hb.2, continuation_zero_eq_ok.2 ⟨rfl, rfl⟩⟩) ?_
    · subst h
      exact absurd ha' (by decide)
    · rw [hc, leadBits, Nat.pow_eq]
      obtain ⟨hb, hb'⟩ := hb
      omega
  | @three a b d _ ha ha' hb hd hab hc =>
    refine ⟨a, [b, d], rfl, fun r => ?_⟩
    by_cases hsurrogate : a = 0xED ∧ 0xA0 ≤ b.toNat
    · obtain ⟨rfl, hlow⟩ := hsurrogate
      exact afterLead_surrogate hlow hb.2 hd hc r
    · exact afterLead_three ha ha' hb hd hab (fun h => Nat.lt_of_not_le fun hb => hsurrogate ⟨h, hb⟩) hc r
  | @four a b d e _ ha ha' hb hd he hab hab' hc =>
    refine ⟨a, [b, d, e], rfl, fun r => ?_⟩
    obtain ⟨hb₁, hb₂⟩ := hb
    obtain ⟨hd₁, hd₂⟩ := hd
    obtain ⟨he₁, he₂⟩ := he
    refine afterLead_of_continuation (by omega) (fun h => ?_) (tail?_four ha ha')
      (continuation_succ_eq_ok.2 ⟨b, d :: e :: r, rfl, ?_, ?_, continuation_succ_eq_ok.2 ⟨d, e :: r, rfl, hd₁, hd₂,
        continuation_succ_eq_ok.2 ⟨e, r, rfl, he₁, he₂, continuation_zero_eq_ok.2 ⟨rfl, rfl⟩⟩⟩⟩) ?_
    · subst h
      exact absurd ha (by decide)
    · split
      · next h => exact hab (h ▸ rfl)
      · exact hb₁
    · split
      · next h => exact hab' (h ▸ rfl)
      · exact hb₂
    · rw [hc, leadBits, Nat.pow_eq]
      omega

theorem tail?_one {a : UInt8} (h : a.toNat < 0x80) : tail? a = none := by
  simp only [tail?, UInt8.le_iff_toNat_le, ← UInt8.toNat_inj, UInt8.reduceToNat]
  grind

/-- The first byte of a plain form tells its length. -/
theorem IsPlain.width_eq {a : UInt8} {more : List UInt8} {c : CodePoint} (h : IsPlain (a :: more) c) :
    width a = (a :: more).length := by
  cases h with
  | one ha _ => rw [width, tail?_one ha]; rfl
  | two ha ha' _ _ => rw [width, tail?_two ha ha']; rfl
  | three ha ha' _ _ _ _ => rw [width, tail?_three ha ha']; rfl
  | four ha ha' _ _ _ _ _ _ => rw [width, tail?_four ha ha']; rfl

/-! ### Rows -/

theorem row_of_units {position : Nat} {s : List UInt8} {points : Text} (h : units position s = .ok points) :
    Row IsPlain s points := by
  fun_induction units position s generalizing points with
  | case1 =>
    cases h
    exact .nil
  | case2 => cases h
  | case3 position a s c s' hread _ ih =>
    cases hrest : units (position + width a) s' with
    | error f =>
      rw [hrest] at h
      cases h
    | ok rest =>
      rw [hrest] at h
      cases h
      obtain ⟨form, hform, heq⟩ := isPlain_of_afterLead hread
      rw [heq]
      exact .cons hform (ih hrest)

theorem units_cons {a : UInt8} {s s' : List UInt8} {c : CodePoint} (h : afterLead a s = .ok (c, s')) (position : Nat) :
    units position (a :: s) = (units (position + width a) s').map (c :: ·) := by
  rw [units]
  split
  · next heq =>
    rw [h] at heq
    cases heq
  · next heq =>
    rw [h] at heq
    cases heq
    rfl

/-- A row of plain forms is read, and then what follows it. -/
theorem units_append {s : List UInt8} {points : Text} (h : Row IsPlain s points) (position : Nat) (rest : List UInt8) :
    units position (s ++ rest) = (units (position + s.length) rest).map (points ++ ·) := by
  induction h generalizing position with
  | nil =>
    rw [List.nil_append, List.length_nil, Nat.add_zero]
    cases units position rest <;> rfl
  | @cons first bytes c points hform _ ih =>
    obtain ⟨a, more, rfl, hread⟩ := afterLead_of_isPlain hform
    rw [List.append_assoc, List.cons_append, units_cons (hread (bytes ++ rest)), ih, hform.width_eq, List.length_append,
      Nat.add_assoc]
    cases units (position + ((a :: more).length + bytes.length)) rest <;> rfl

theorem units_of_row {s : List UInt8} {points : Text} (h : Row IsPlain s points) (position : Nat) :
    units position s = .ok points := by
  have hread := units_append h position []
  rw [List.append_nil, units] at hread
  rw [hread, Except.map, List.append_nil]

/-- Reading units up to the end reads a row of plain forms. -/
theorem units_eq_ok {position : Nat} {s : List UInt8} {points : Text} :
    units position s = .ok points ↔ Row IsPlain s points :=
  ⟨row_of_units, fun h => units_of_row h position⟩

/-! ### The two forms of zero -/

theorem plainZero_cons {a : UInt8} {s : List UInt8} (h : ¬ (a = 0xC0 ∧ s.head? = some 0x80)) :
    plainZero (a :: s) = a :: plainZero s := by
  cases s with
  | nil => rfl
  | cons b s =>
    have hpair : ¬ (a = 0xC0 ∧ b = 0x80) := fun hab => h ⟨hab.1, congrArg some hab.2⟩
    rw [plainZero, if_neg hpair]

theorem plainZero_append {form : List UInt8} (hform : ∀ a ∈ form, a ≠ 0xC0) (s : List UInt8) :
    plainZero (form ++ s) = form ++ plainZero s := by
  induction form with
  | nil => rfl
  | cons a form ih =>
    obtain ⟨ha, hform⟩ := List.forall_mem_cons.1 hform
    rw [List.cons_append, plainZero_cons fun h => ha h.1, ih hform, List.cons_append]

/-- A byte after the replacement was there before, or is a zero that replaced `C0 80`. -/
theorem plainZero_eq_cons {s t : List UInt8} {a : UInt8} (h : plainZero s = a :: t) :
    (∃ s', s = a :: s' ∧ plainZero s' = t) ∨ a = 0 ∧ ∃ s', s = 0xC0 :: 0x80 :: s' ∧ plainZero s' = t := by
  cases s with
  | nil => cases h
  | cons b s =>
    cases s with
    | nil =>
      cases h
      exact .inl ⟨[], rfl, rfl⟩
    | cons c s =>
      rw [plainZero] at h
      split at h
      · next hbc =>
        obtain ⟨rfl, rfl⟩ := hbc
        cases h
        exact .inr ⟨rfl, s, rfl, rfl⟩
      · cases h
        exact .inl ⟨c :: s, rfl, rfl⟩

theorem plainZero_eq_append {form s t : List UInt8} (hform : ∀ a ∈ form, a ≠ 0) (h : plainZero s = form ++ t) :
    ∃ s', s = form ++ s' ∧ plainZero s' = t := by
  induction form generalizing s with
  | nil => exact ⟨s, rfl, h⟩
  | cons a form ih =>
    obtain ⟨ha, hform⟩ := List.forall_mem_cons.1 hform
    rcases plainZero_eq_cons h with ⟨s', rfl, hs'⟩ | ⟨hzero, -⟩
    · obtain ⟨s'', rfl, hs''⟩ := ih hform hs'
      exact ⟨s'', rfl, hs''⟩
    · exact absurd hzero ha

/-- In a plain form a byte is neither `C0` nor, unless it is the whole form, zero. -/
theorem IsPlain.bytes {form : List UInt8} {c : CodePoint} (h : IsPlain form c) :
    (∀ a ∈ form, a ≠ 0xC0) ∧ (form = [0] ∧ c.val = 0 ∨ ∀ a ∈ form, a ≠ 0) := by
  simp only [ne_eq, ← UInt8.toNat_inj, UInt8.reduceToNat]
  cases h with
  | @one a _ ha hc =>
    refine ⟨by grind, ?_⟩
    by_cases hzero : a = 0
    · subst hzero
      exact .inl ⟨rfl, hc⟩
    · have : a.toNat ≠ 0 := fun h => hzero (UInt8.toNat_inj.1 h)
      exact .inr (by grind)
  | two ha ha' hb hc => exact ⟨by grind [IsMore], .inr (by grind [IsMore])⟩
  | three ha ha' hb hd hab hc => exact ⟨by grind [IsMore], .inr (by grind [IsMore])⟩
  | four ha ha' hb hd he hab hab' hc => exact ⟨by grind [IsMore], .inr (by grind [IsMore])⟩

theorem isPlain_zero {c : CodePoint} (h : c.val = 0) : IsPlain [0] c := .one (by decide) h

/-- Replacing `C0 80` by zero makes plain forms out of forms, and only out of them. -/
theorem row_plainZero {s : List UInt8} {points : Text} : Row IsPlain (plainZero s) points ↔ Row IsForm s points := by
  constructor
  · intro h
    generalize ht : plainZero s = t at h
    induction h generalizing s with
    | nil =>
      cases s with
      | nil => exact .nil
      | cons a s =>
        exfalso
        cases s with
        | nil => cases ht
        | cons b s =>
          rw [plainZero] at ht
          split at ht <;> cases ht
    | @cons first bytes c points hform _ ih =>
      rcases hform.bytes.2 with ⟨rfl, hc⟩ | hne
      · rcases plainZero_eq_cons ht with ⟨s', rfl, hs'⟩ | ⟨-, s', rfl, hs'⟩
        · exact Row.cons (.inl hform) (ih hs')
        · have hzero : IsForm [0xC0, 0x80] c := .inr ⟨rfl, hc⟩
          exact .cons hzero (ih hs')
      · obtain ⟨s', rfl, hs'⟩ := plainZero_eq_append hne ht
        exact .cons (.inl hform) (ih hs')
  · intro h
    induction h with
    | nil => exact .nil
    | @cons first bytes c points hform _ ih =>
      rcases hform with hform | ⟨rfl, hc⟩
      · rw [plainZero_append hform.bytes.1]
        exact .cons hform ih
      · exact Row.cons (isPlain_zero hc) ih

/-- Reading accepts exactly the spellings of texts, and gives the text. -/
theorem decode_eq_ok {raw : List UInt8} {text : Text} : decode raw = .ok text ↔ Spells raw text := by
  rw [decode]
  constructor
  · intro h
    cases hunits : units 0 (plainZero raw) with
    | error f =>
      rw [hunits] at h
      cases h
    | ok points =>
      rw [hunits] at h
      cases h
      exact ⟨points, row_plainZero.1 (units_eq_ok.1 hunits), rfl⟩
  · rintro ⟨points, hrow, rfl⟩
    rw [units_eq_ok.2 (row_plainZero.2 hrow)]
    rfl

end Coupling.ModifiedUtf8
