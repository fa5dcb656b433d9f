import Coupling.Proofs.Encoding

/-!
# Texts as rows of code units

The compiler of a class writes a text as a row of UTF-16 code units, each in a form of its own: one byte for the units from
1 to `7F`, two up to `7FF` and for zero, and three for all others, surrogates included. Reading undoes this. What it gives
is the text of the units, in which every high surrogate is joined with the low one right after it, and all other units
stand for themselves. So every string of characters is read as it was written.
-/

namespace Coupling.ModifiedUtf8

/-! ### Units -/

/-- The bytes of a unit. -/
def encodeUnit (u : UInt16) : List UInt8 :=
  let n := u.toNat
  if 0x01 ≤ n ∧ n ≤ 0x7F then [UInt8.ofNat n]
  else if n ≤ 0x7FF then [UInt8.ofNat (0xC0 + n / 64), UInt8.ofNat (0x80 + n % 64)]
  else [UInt8.ofNat (0xE0 + n / 4096), UInt8.ofNat (0x80 + n / 64 % 64), UInt8.ofNat (0x80 + n % 64)]

/-- The code point of the same number. -/
def unitPoint (u : UInt16) : CodePoint := ⟨u.toNat, Nat.lt_trans u.toNat_lt (by decide)⟩

/-- The units of a character: a surrogate pair for those beyond the first plane. -/
def charUnits (c : Char) : List UInt16 :=
  let n := c.toNat
  if n < 0x10000 then [UInt16.ofNat n]
  else [UInt16.ofNat (0xD800 + (n - 0x10000) / 0x400), UInt16.ofNat (0xDC00 + (n - 0x10000) % 0x400)]

/-! ### Pairs -/

/-- The code points of a text: from left to right, each high surrogate is joined with a low one right after it. -/
inductive Joins : Text → Text → Prop where
  /-- Nothing is to be joined. -/
  | nil : Joins [] []
  /-- A surrogate pair is one character. -/
  | pair {high low c : CodePoint} {points text : Text} : high.IsHigh → low.IsLow →
    c.val = 0x10000 + (high.val - 0xD800) * 0x400 + (low.val - 0xDC00) → Joins points text →
    Joins (high :: low :: points) (c :: text)
  /-- Any other code point stays as it is. -/
  | single {c : CodePoint} {points text : Text} : (c.IsHigh → ∀ d ∈ points.head?, ¬ d.IsLow) → Joins points text →
    Joins (c :: points) (c :: text)

theorem joinPairs_pair {c d : CodePoint} (hc : c.IsHigh) (hd : d.IsLow) (t : Text) :
    joinPairs (c :: d :: t) = pair c d :: joinPairs t := by
  rw [joinPairs, if_pos ⟨hc, hd⟩]

theorem joinPairs_single {c : CodePoint} {t : Text} (h : c.IsHigh → ∀ d ∈ t.head?, ¬ d.IsLow) :
    joinPairs (c :: t) = c :: joinPairs t := by
  cases t with
  | nil => rfl
  | cons d t =>
    have hnot : ¬ (c.IsHigh ∧ d.IsLow) := fun hcd => h hcd.1 d rfl hcd.2
    rw [joinPairs, if_neg hnot]

theorem Joins.eq_joinPairs {points text : Text} (h : Joins points text) : text = joinPairs points := by
  induction h with
  | nil => rfl
  | @pair high low c points text hhigh hlow hc _ ih =>
    have hpair : ModifiedUtf8.pair high low = c := ofNat_of_val hc
    rw [joinPairs_pair hhigh hlow, hpair, ih]
  | single halone _ ih => rw [joinPairs_single halone, ← ih]

theorem joins_joinPairs (points : Text) : Joins points (joinPairs points) := by
  induction points using joinPairs.induct with
  | case1 => exact .nil
  | case2 c => exact .single (by simp) .nil
  | case3 high low points h ih =>
    rw [joinPairs_pair h.1 h.2]
    refine .pair h.1 h.2 (val_ofNat ?_) ih
    obtain ⟨⟨_, _⟩, _, _⟩ := h
    omega
  | case4 c d points h ih =>
    have halone : c.IsHigh → ∀ d' ∈ (d :: points).head?, ¬ d'.IsLow := by
      intro hc d' hd' hlow
      cases hd'
      exact h ⟨hc, hlow⟩
    rw [joinPairs_single halone]
    exact .single halone ih

theorem joins_iff {points text : Text} : Joins points text ↔ text = joinPairs points := by
  constructor
  · exact Joins.eq_joinPairs
  · rintro rfl
    exact joins_joinPairs points

/-! ### Reading units -/

theorem isForm_encodeUnit (u : UInt16) : IsForm (encodeUnit u) (unitPoint u) := by
  have hu := u.toNat_lt
  by_cases hzero : u.toNat = 0
  · refine .inr ⟨?_, hzero⟩
    rw [encodeUnit]
    simp [hzero]
  · have hplain : encodeUnit u = Utf8.encodePoint (unitPoint u) := by
      simp only [encodeUnit, Utf8.encodePoint, unitPoint]
      grind
    rw [hplain]
    exact .inl (Utf8.isPlain_encodePoint (unitPoint u))

theorem row_encodeUnit (units : List UInt16) : Row IsForm (units.flatMap encodeUnit) (units.map unitPoint) := by
  induction units with
  | nil => exact .nil
  | cons u units ih => exact .cons (isForm_encodeUnit u) ih

theorem decode_units (units : List UInt16) :
    decode (units.flatMap encodeUnit) = .ok (joinPairs (units.map unitPoint)) :=
  decode_eq_ok.2 ⟨_, row_encodeUnit units, rfl⟩

/-! ### Characters -/

/-- The units of characters are joined to the characters. -/
theorem joins_charUnits (s : List Char) : Joins ((s.flatMap charUnits).map unitPoint) (s.map CodePoint.ofChar) := by
  induction s with
  | nil => exact .nil
  | cons c s ih =>
    have hvalid : c.toNat.isValidChar := c.valid
    unfold Nat.isValidChar at hvalid
    rw [List.flatMap_cons, List.map_append, List.map_cons, charUnits]
    split
    · next hplane =>
      have hunit : unitPoint (UInt16.ofNat c.toNat) = CodePoint.ofChar c := by
        refine CodePoint.ext_val ?_
        show (UInt16.ofNat c.toNat).toNat = c.toNat
        rw [UInt16.toNat_ofNat']
        omega
      rw [List.map_singleton, hunit]
      refine .single (fun hhigh => ?_) ih
      -- No character is a surrogate.
      obtain ⟨hlow, hhigh⟩ : 0xD800 ≤ c.toNat ∧ c.toNat ≤ 0xDBFF := hhigh
      omega
    · next hplane =>
      have hhigh : (UInt16.ofNat (0xD800 + (c.toNat - 0x10000) / 0x400)).toNat = 0xD800 + (c.toNat - 0x10000) / 0x400 := by
        rw [UInt16.toNat_ofNat']
        omega
      have hlow : (UInt16.ofNat (0xDC00 + (c.toNat - 0x10000) % 0x400)).toNat = 0xDC00 + (c.toNat - 0x10000) % 0x400 := by
        rw [UInt16.toNat_ofNat']
        omega
      have hval : (CodePoint.ofChar c).val = c.toNat := rfl
      refine .pair ⟨?_, ?_⟩ ⟨?_, ?_⟩ ?_ ih
      all_goals
        simp only [unitPoint]
        omega

/-- Reading undoes the writing of units: it gives the one text that the units make up, each high surrogate joined with the
low one right after it and every other unit as it is. So it gives back every string of characters. -/
theorem decode_encodeUnits (units : List UInt16) :
    (∃ text, decode (units.flatMap encodeUnit) = .ok text ∧ ∀ text', Joins (units.map unitPoint) text' ↔ text' = text) ∧
    ∀ s : String, decode ((s.toList.flatMap charUnits).flatMap encodeUnit) = .ok s := by
  refine ⟨⟨_, decode_units units, fun text' => joins_iff⟩, fun s => ?_⟩
  rw [decode_units, ← (joins_charUnits s.toList).eq_joinPairs]
  rfl

end Coupling.ModifiedUtf8
