import Coupling.Proofs.Spelling

/-!
# Which bytes are text

Files that have to be in UTF-8 are read by the same units as the texts of class files, except that no surrogate is a
character. So they are read exactly when their bytes are the encoding of some characters.
-/

namespace Coupling

theorem CodePoint.ofChar_ofNat {n : Nat} (h : n.isValidChar) : ofChar (Char.ofNat n) = ofNat n := by
  have hlt : n < 0x110000 := by
    unfold Nat.isValidChar at h
    omega
  refine ext_val ?_
  rw [ModifiedUtf8.val_ofNat hlt, Char.ofNat, dif_pos h]
  rfl

namespace Utf8

open ModifiedUtf8 (IsPlain IsMore surrogate? surrogate?_eq_some continuation_succ_eq_ok continuation_zero_eq_ok
  tail?_eq_some)

/-! ### One character -/

theorem isMore_ofNat (n : Nat) : IsMore (UInt8.ofNat (0x80 + n % 64)) := by
  simp only [IsMore, UInt8.toNat_ofNat']
  omega

/-- What encoding gives is a plain form. -/
theorem isPlain_encodePoint (c : CodePoint) : IsPlain (encodePoint c) c := by
  have hc := c.isLt
  unfold encodePoint
  dsimp only
  split
  · refine .one ?_ ?_ <;> simp only [UInt8.toNat_ofNat'] <;> omega
  · split
    · refine .two ?_ ?_ (isMore_ofNat _) ?_ <;> simp only [UInt8.toNat_ofNat'] <;> omega
    · split
      · refine .three ?_ ?_ (isMore_ofNat _) (isMore_ofNat _) ?_ ?_ <;> simp only [UInt8.toNat_ofNat'] <;> omega
      · refine .four ?_ ?_ (isMore_ofNat _) (isMore_ofNat _) (isMore_ofNat _) ?_ ?_ ?_ <;>
          simp only [UInt8.toNat_ofNat'] <;> omega

/-- A code point has no other plain form. -/
theorem eq_encodePoint_of_isPlain {form : List UInt8} {c : CodePoint} (h : IsPlain form c) : form = encodePoint c := by
  cases h with
  | one ha hc =>
    rw [encodePoint, if_pos (by omega)]
    simp only [List.cons.injEq, and_true, ← UInt8.toNat_inj, UInt8.toNat_ofNat']
    omega
  | two ha ha' hb hc =>
    obtain ⟨hb, hb'⟩ := hb
    rw [encodePoint, if_neg (by omega), if_pos (by omega)]
    simp only [List.cons.injEq, and_true, ← UInt8.toNat_inj, UInt8.toNat_ofNat']
    omega
  | three ha ha' hb hd hab hc =>
    obtain ⟨hb, hb'⟩ := hb
    obtain ⟨hd, hd'⟩ := hd
    rw [encodePoint, if_neg (by omega), if_neg (by omega), if_pos (by omega)]
    simp only [List.cons.injEq, and_true, ← UInt8.toNat_inj, UInt8.toNat_ofNat']
    omega
  | four ha ha' hb hd he hab hab' hc =>
    obtain ⟨hb, hb'⟩ := hb
    obtain ⟨hd, hd'⟩ := hd
    obtain ⟨he, he'⟩ := he
    rw [encodePoint, if_neg (by omega), if_neg (by omega), if_neg (by omega)]
    simp only [List.cons.injEq, and_true, ← UInt8.toNat_inj, UInt8.toNat_ofNat']
    omega

/-- After the lead byte `ED` the second byte is kept from making a surrogate. -/
theorem high_of_tail? {low high : UInt8} {n : Nat} (h : tail? 0xED = some (n, low, high)) : high.toNat = 0x9F := by
  have htail : tail? 0xED = some (2, 0x80, 0x9F) := by decide
  rw [htail] at h
  cases h
  rfl

/-- The bits of a lead byte and those that follow make no surrogate. -/
theorem isValidChar_of_continuation {a low high : UInt8} {n bits : Nat} {s r : List UInt8}
    (htail : tail? a = some (n, low, high)) (hcont : continuation n low high (leadBits a n) s = .ok (bits, r)) :
    bits.isValidChar := by
  have hsurrogate (h : a.toNat = 0xED) : high.toNat = 0x9F := by
    obtain rfl : a = 0xED := UInt8.toNat_inj.1 h
    exact high_of_tail? htail
  rw [leadBits, Nat.pow_eq] at hcont
  unfold Nat.isValidChar
  obtain ⟨hlow, hhigh, ⟨rfl, ha⟩ | ⟨rfl, ha⟩ | ⟨rfl, ha⟩⟩ := tail?_eq_some htail
  · obtain ⟨b, s, rfl, hb, hb', hcont⟩ := continuation_succ_eq_ok.1 hcont
    obtain ⟨rfl, rfl⟩ := continuation_zero_eq_ok.1 hcont
    omega
  · obtain ⟨b, s, rfl, hb, hb', hcont⟩ := continuation_succ_eq_ok.1 hcont
    obtain ⟨d, s, rfl, hd, hd', hcont⟩ := continuation_succ_eq_ok.1 hcont
    obtain ⟨rfl, rfl⟩ := continuation_zero_eq_ok.1 hcont
    omega
  · obtain ⟨b, s, rfl, hb, hb', hcont⟩ := continuation_succ_eq_ok.1 hcont
    obtain ⟨d, s, rfl, hd, hd', hcont⟩ := continuation_succ_eq_ok.1 hcont
    obtain ⟨e, s, rfl, he, he', hcont⟩ := continuation_succ_eq_ok.1 hcont
    obtain ⟨rfl, rfl⟩ := continuation_zero_eq_ok.1 hcont
    omega

theorem ofChar_ne_of_surrogate? {s r : List UInt8} {c : Char} : surrogate? s ≠ some (CodePoint.ofChar c, r) := by
  intro h
  obtain ⟨b, d, rfl, hb, hb', ⟨hd, hd'⟩, hc⟩ := surrogate?_eq_some.1 h
  have hval : c.toNat = (CodePoint.ofNat (0xD000 + 64 * (b.toNat % 64) + d.toNat % 64)).val := congrArg CodePoint.val hc
  rw [ModifiedUtf8.val_ofNat (by omega)] at hval
  have hvalid : c.toNat.isValidChar := c.valid
  unfold Nat.isValidChar at hvalid
  omega

/-- What is made of a character depends on its number only. -/
theorem afterLead_eq_ok {α : Type} {ofNumber : Nat → α} {a : UInt8} {s r : List UInt8} {x : α} :
    afterLead ofNumber a s = .ok (x, r) ↔ ∃ n, afterLead id a s = .ok (n, r) ∧ ofNumber n = x := by
  have hread (m : Nat) (rest : List UInt8) : (.ok (ofNumber m, rest) : Except (Nat × Reason) _) = .ok (x, r) ↔
      ∃ n, (.ok (id m, rest) : Except (Nat × Reason) _) = .ok (n, r) ∧ ofNumber n = x := by
    constructor
    · intro h
      cases h
      exact ⟨m, rfl, rfl⟩
    · rintro ⟨n, h, rfl⟩
      cases h
      rfl
  unfold afterLead
  split
  · exact hread _ _
  · split
    · simp
    · split
      · exact hread _ _
      · simp

/-- The number of a character that was read is that of a character. -/
theorem isValidChar_of_afterLead {a : UInt8} {s r : List UInt8} {n : Nat} (h : afterLead id a s = .ok (n, r)) :
    n.isValidChar := by
  unfold afterLead at h
  split at h
  · next ha =>
    cases h
    have ha : a.toNat < 0x80 := ha
    exact .inl (show a.toNat < 0xD800 by omega)
  · split at h
    · cases h
    · next htail =>
      split at h
      · next hcont =>
        cases h
        exact isValidChar_of_continuation htail hcont
      · cases h

/-- The bytes of a character that was read are its encoding. -/
theorem eq_append_of_afterLead {a : UInt8} {s r : List UInt8} {c : Char} (h : afterLead Char.ofNat a s = .ok (c, r)) :
    a :: s = encodePoint (CodePoint.ofChar c) ++ r := by
  obtain ⟨n, hn, rfl⟩ := afterLead_eq_ok.1 h
  have hpoint : afterLead CodePoint.ofNat a s = .ok (CodePoint.ofNat n, r) := afterLead_eq_ok.2 ⟨n, hn, rfl⟩
  obtain ⟨form, hform, heq⟩ := ModifiedUtf8.isPlain_of_utf8 hpoint
  rw [CodePoint.ofChar_ofNat (isValidChar_of_afterLead hn), ← eq_encodePoint_of_isPlain hform]
  exact heq

/-- What class files have for a character is read as the character. -/
theorem afterLead_of_modified {a : UInt8} {s r : List UInt8} {c : Char}
    (h : ModifiedUtf8.afterLead a s = .ok (CodePoint.ofChar c, r)) : afterLead Char.ofNat a s = .ok (c, r) := by
  unfold ModifiedUtf8.afterLead at h
  split at h
  · next hsome =>
    cases h
    split at hsome
    · exact absurd hsome ofChar_ne_of_surrogate?
    · cases hsome
  · obtain ⟨n, hn, hpoint⟩ := afterLead_eq_ok.1 h
    rw [← CodePoint.ofChar_ofNat (isValidChar_of_afterLead hn)] at hpoint
    exact afterLead_eq_ok.2 ⟨n, hn, Char.toNat_inj.1 (congrArg CodePoint.val hpoint)⟩

/-! ### Whole files -/

/-- The encoding of some characters. -/
def IsEncoded (bytes : List UInt8) : Prop := ∃ s : List Char, bytes = encode (s.map CodePoint.ofChar)

theorem decode?_encode (s : List Char) : decode? (encode (s.map CodePoint.ofChar)) = some s := by
  induction s with
  | nil => rw [List.map_nil, encode, List.flatMap_nil, decode?]
  | cons c s ih =>
    obtain ⟨a, more, hform, hread⟩ := ModifiedUtf8.afterLead_of_isPlain (isPlain_encodePoint (CodePoint.ofChar c))
    rw [encode, List.map_cons, List.flatMap_cons, hform, List.cons_append, decode?]
    have hlead := afterLead_of_modified (hread (encode (s.map CodePoint.ofChar)))
    split
    · next heq => cases hlead.symm.trans heq
    · next heq =>
      cases hlead.symm.trans heq
      rw [ih]
      rfl

theorem eq_encode_of_decode? {bytes : List UInt8} {s : List Char} (h : decode? bytes = some s) :
    bytes = encode (s.map CodePoint.ofChar) := by
  induction hn : bytes.length using Nat.strongRecOn generalizing bytes s with
  | _ n ih =>
    subst hn
    cases bytes with
    | nil =>
      rw [decode?] at h
      cases h
      rfl
    | cons a bytes =>
      rw [decode?] at h
      split at h
      · cases h
      · next c rest hread =>
        obtain ⟨s, hs, rfl⟩ := Option.map_eq_some_iff.1 h
        have hlen := afterLead_length hread
        rw [eq_append_of_afterLead hread, ih rest.length (Nat.lt_succ_of_le hlen) hs rfl, List.map_cons, encode, encode,
          List.flatMap_cons]

theorem decode?_eq_none {bytes : List UInt8} : decode? bytes = none ↔ ¬IsEncoded bytes := by
  constructor
  · rintro h ⟨s, rfl⟩
    rw [decode?_encode] at h
    cases h
  · intro h
    cases hs : decode? bytes with
    | none => rfl
    | some s => exact absurd ⟨s, eq_encode_of_decode? hs⟩ h

end Utf8

end Coupling
