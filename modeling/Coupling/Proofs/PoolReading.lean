import Coupling.Proofs.Layout

/-!
# Reading the constant pool

A constant is read exactly as it is laid out, and so is the pool: its constants fill the slots one after the other, and
what follows the last of them is never looked at.
-/

namespace Coupling.ClassFile

open Decoder

namespace Constant

theorem memberKind?_eq_some {tag : UInt8} {kind : MemberKind} : memberKind? tag = some kind ↔ tag = kind.tag := by
  constructor
  · intro h
    unfold memberKind? at h
    split at h <;> cases h <;> rfl
  · rintro rfl
    cases kind <;> rfl

/-- What may follow a tag. -/
def Follows (tag : UInt8) : Meaning Constant := fun _ bytes c => c.WellFormed ∧ c.encode = tag :: bytes

/-- The kinds of constants, told by their tags. -/
theorem follows_iff {tag : UInt8} {before bytes : List UInt8} {c : Constant} : Follows tag before bytes c ↔
    (tag = 1 ∧ ∃ raw text, raw.length < 2 ^ 16 ∧ ModifiedUtf8.Spells raw text ∧ bytes = numeral 2 raw.length ++ raw ∧
      c = utf8 raw text) ∨
    (tag = 7 ∧ ∃ i < 2 ^ 16, bytes = numeral 2 i ∧ c = classRef i) ∨
    (∃ kind, memberKind? tag = some kind ∧ ∃ i < 2 ^ 16, ∃ n < 2 ^ 16, bytes = numeral 2 i ++ numeral 2 n ∧
      c = memberRef kind i n) ∨
    (uninterpretedWidth? tag = some bytes.length ∧ c = uninterpreted tag bytes) := by
  constructor
  · rintro ⟨hwf, hencode⟩
    cases c with
    | utf8 raw text =>
      obtain ⟨rfl, rfl⟩ := List.cons.inj hencode
      exact .inl ⟨rfl, raw, text, hwf.1, hwf.2, rfl, rfl⟩
    | classRef i =>
      obtain ⟨rfl, rfl⟩ := List.cons.inj hencode
      exact .inr (.inl ⟨rfl, i, hwf, rfl, rfl⟩)
    | memberRef kind i n =>
      obtain ⟨rfl, rfl⟩ := List.cons.inj hencode
      exact .inr (.inr (.inl ⟨kind, memberKind?_eq_some.2 rfl, i, hwf.1, n, hwf.2, rfl, rfl⟩))
    | uninterpreted t payload =>
      obtain ⟨rfl, rfl⟩ := List.cons.inj hencode
      exact .inr (.inr (.inr ⟨hwf, rfl⟩))
  · rintro (⟨rfl, raw, text, hlen, hspells, rfl, rfl⟩ | ⟨rfl, i, hi, rfl, rfl⟩ |
      ⟨kind, hkind, i, hi, n, hn, rfl, rfl⟩ | ⟨hwidth, rfl⟩)
    · exact ⟨⟨hlen, hspells⟩, rfl⟩
    · exact ⟨hi, rfl⟩
    · rw [memberKind?_eq_some.1 hkind]
      exact ⟨⟨hi, hn⟩, rfl⟩
    · exact ⟨hwidth, rfl⟩

theorem exact_text (raw : List UInt8) : Exact (ofRead (match ModifiedUtf8.decode raw with
    | .ok text => pure (utf8 raw text)
    | .error f => throw (.badText f)))
    fun _ bytes c => bytes = [] ∧ ∃ text, ModifiedUtf8.Spells raw text ∧ c = utf8 raw text := by
  simp only [← ModifiedUtf8.decode_eq_ok]
  cases h : ModifiedUtf8.decode raw with
  | ok text =>
    refine (Exact.read_pure (utf8 raw text)).congr fun before bytes c => ?_
    simp [Meaning.nothing]
  | error f =>
    refine (Exact.read_throw _).congr fun before bytes c => ?_
    simp

theorem exact_utf8 : Exact (ofRead (do
    let raw ← Reader.bytes (← Reader.u2)
    match ModifiedUtf8.decode raw with
    | .ok text => pure (utf8 raw text)
    | .error f => throw (.badText f))) (Follows 1) := by
  refine (exact_u2.read_bind fun n => (exact_bytes n).read_bind exact_text).congr fun before bytes c => ?_
  have htags : (1 : UInt8) ≠ 7 ∧ memberKind? 1 = none ∧ uninterpretedWidth? 1 = none := by decide
  simp only [follows_iff, htags, true_and, reduceCtorEq, false_and, exists_false, or_false, Meaning.seq_of,
    Meaning.behind_seq_of]
  constructor
  · rintro ⟨n, hn, raw, hlen, _, ⟨rfl, text, hspells, rfl⟩, rfl⟩
    obtain rfl : raw.length = n := by omega
    exact ⟨raw, text, hn, hspells, List.append_nil _, rfl⟩
  · rintro ⟨raw, text, hlen, hspells, rfl, rfl⟩
    exact ⟨_, hlen, raw, rfl, [], ⟨rfl, text, hspells, rfl⟩, (List.append_nil _).symm⟩

theorem exact_classRef : Exact (ofRead (do pure (classRef (← Reader.u2)))) (Follows 7) := by
  refine (exact_u2.read_bind fun n => Exact.read_pure (classRef n)).congr fun before bytes c => ?_
  have htags : (7 : UInt8) ≠ 1 ∧ memberKind? 7 = none ∧ uninterpretedWidth? 7 = none := by decide
  simp only [follows_iff, htags, true_and, reduceCtorEq, false_and, exists_false, or_false, false_or, Meaning.seq_of,
    Meaning.behind_nothing]

theorem exact_memberRef (kind : MemberKind) : Exact (ofRead (do
    let classIndex ← Reader.u2
    pure (memberRef kind classIndex (← Reader.u2)))) (Follows kind.tag) := by
  refine (exact_u2.read_bind fun i => exact_u2.read_bind fun n =>
    Exact.read_pure (memberRef kind i n)).congr fun before bytes c => ?_
  have htags : memberKind? kind.tag = some kind ∧ kind.tag ≠ 1 ∧ kind.tag ≠ 7 ∧ uninterpretedWidth? kind.tag = none := by
    cases kind <;> decide
  simp only [follows_iff, htags, reduceCtorEq, false_and, or_false, false_or, Option.some.injEq, exists_eq_left',
    Meaning.seq_of, Meaning.behind_seq_of, Meaning.behind_nothing]

theorem exact_uninterpreted {tag : UInt8} {width : Nat} (h₁ : tag ≠ 1) (h₇ : tag ≠ 7) (hkind : memberKind? tag = none)
    (hwidth : uninterpretedWidth? tag = some width) :
    Exact (ofRead (do pure (uninterpreted tag (← Reader.bytes width)))) (Follows tag) := by
  refine ((exact_bytes width).read_bind fun payload =>
    Exact.read_pure (uninterpreted tag payload)).congr fun before bytes c => ?_
  simp only [follows_iff, h₁, h₇, hkind, hwidth, reduceCtorEq, false_and, exists_false, false_or, Option.some.injEq,
    Meaning.seq_of, Meaning.behind_nothing]
  constructor
  · rintro ⟨payload, hlen, rfl, rfl⟩
    exact ⟨by omega, rfl⟩
  · rintro ⟨hlen, rfl⟩
    exact ⟨bytes, by omega, rfl, rfl⟩

/-- A constant begins with its tag. -/
theorem encode_eq_cons (c : Constant) : ∃ tag bytes, c.encode = tag :: bytes := by
  cases c <;> exact ⟨_, _, rfl⟩

/-- A constant is read exactly as it is laid out. -/
theorem exact_read : Exact (ofRead read) (Meaning.of WellFormed encode) := by
  unfold read
  refine (exact_byte_bind (S := fun _ => Follows) fun offset n => ?_).congr fun before bytes c => ?_
  · generalize UInt8.ofNat n = tag
    dsimp only
    split
    · next h =>
      rw [h]
      exact exact_utf8
    · next h₁ =>
      split
      · next h =>
        rw [h]
        exact exact_classRef
      · next h₇ =>
        split
        · next _ kind hkind =>
          rw [memberKind?_eq_some.1 hkind]
          exact exact_memberRef kind
        · next width hkind hwidth => exact exact_uninterpreted h₁ h₇ hkind hwidth
        · next hkind hwidth =>
          refine (Exact.read_throw _).congr fun before bytes c => ?_
          simp only [follows_iff, h₁, h₇, hkind, hwidth, reduceCtorEq, false_and, exists_false, or_false]
  · constructor
    · rintro ⟨tag, rest, ⟨hwf, hencode⟩, rfl⟩
      exact ⟨hwf, hencode.symm⟩
    · rintro ⟨hwf, rfl⟩
      obtain ⟨tag, rest, hencode⟩ := c.encode_eq_cons
      exact ⟨tag, rest, ⟨hwf, hencode⟩, hencode⟩

end Constant

namespace Pool

theorem filled_one_iff {slots : List (Option Constant)} :
    slots.length = 1 ∧ Filled slots ↔ ∃ c, c.WellFormed ∧ slots = [some c] := by
  constructor
  · rintro ⟨hlen, hfilled⟩
    cases hfilled with
    | nil => cases hlen
    | narrow hwf _ _ => exact ⟨_, hwf, by simpa using hlen⟩
    | wide _ _ _ => simp at hlen
    | last hwf _ => exact ⟨_, hwf, rfl⟩
  · rintro ⟨c, hwf, rfl⟩
    cases hwide : c.isWide with
    | false => exact ⟨rfl, .narrow hwf hwide .nil⟩
    | true => exact ⟨rfl, .last hwf hwide⟩

theorem filled_more_iff {slots : List (Option Constant)} {left : Nat} : slots.length = left + 2 ∧ Filled slots ↔
    ∃ c, c.WellFormed ∧
      ((c.isWide = true ∧ ∃ rest, (rest.length = left ∧ Filled rest) ∧ slots = some c :: none :: rest) ∨
       (c.isWide = false ∧ ∃ rest, (rest.length = left + 1 ∧ Filled rest) ∧ slots = some c :: rest)) := by
  constructor
  · rintro ⟨hlen, hfilled⟩
    cases hfilled with
    | nil => cases hlen
    | narrow hwf hwide hrest => exact ⟨_, hwf, .inr ⟨hwide, _, ⟨by simpa using hlen, hrest⟩, rfl⟩⟩
    | wide hwf hwide hrest => exact ⟨_, hwf, .inl ⟨hwide, _, ⟨by simpa using hlen, hrest⟩, rfl⟩⟩
    | last _ _ => simp at hlen
  · rintro ⟨c, hwf, ⟨hwide, rest, ⟨rfl, hrest⟩, rfl⟩ | ⟨hwide, rest, ⟨hlen, hrest⟩, rfl⟩⟩
    · exact ⟨rfl, .wide hwf hwide hrest⟩
    · exact ⟨by simpa using hlen, .narrow hwf hwide hrest⟩

/-- What follows a constant fills the slots that it leaves of two and some more. -/
def AfterConstant (left : Nat) (c : Constant) : Meaning (List (Option Constant)) := fun _ bytes slots =>
  (c.isWide = true ∧ ∃ rest, ((rest.length = left ∧ Filled rest) ∧ bytes = rest.flatMap encodeSlot) ∧
    slots = some c :: none :: rest) ∨
  (c.isWide = false ∧ ∃ rest, ((rest.length = left + 1 ∧ Filled rest) ∧ bytes = rest.flatMap encodeSlot) ∧
    slots = some c :: rest)

/-- Constants fill a number of slots exactly as they are laid out. -/
theorem exact_readSlots (n : Nat) : Exact (ofRead (readSlots n))
    (Meaning.of (fun slots => slots.length = n ∧ Filled slots) (List.flatMap encodeSlot)) := by
  induction n using Nat.twoStepInduction with
  | zero =>
    refine (Exact.read_pure []).congr fun before bytes slots => ?_
    constructor
    · rintro ⟨rfl, rfl⟩
      exact ⟨⟨rfl, .nil⟩, rfl⟩
    · rintro ⟨⟨hlen, -⟩, rfl⟩
      rw [List.length_eq_zero_iff.1 hlen]
      exact ⟨rfl, rfl⟩
  | one =>
    refine (Constant.exact_read.read_bind_pure fun c => [some c]).congr fun before bytes slots => ?_
    simp only [Meaning.of, filled_one_iff]
    constructor
    · rintro ⟨c, ⟨hwf, rfl⟩, rfl⟩
      exact ⟨⟨c, hwf, rfl⟩, by simp [encodeSlot]⟩
    · rintro ⟨⟨c, hwf, rfl⟩, rfl⟩
      exact ⟨c, ⟨hwf, by simp [encodeSlot]⟩, rfl⟩
  | more left ih ih' =>
    refine (Constant.exact_read.read_bind (S := AfterConstant left) fun c => ?_).congr fun before bytes slots => ?_
    · split
      · next hwide =>
        refine (ih.read_bind_pure _).congr fun before bytes slots => ?_
        simp only [AfterConstant, Meaning.of, hwide, true_and, reduceCtorEq, false_and, or_false]
      · next hwide =>
        refine (ih'.read_bind_pure _).congr fun before bytes slots => ?_
        simp only [AfterConstant, Meaning.of, hwide, true_and, Bool.false_eq_true, false_and, false_or]
    · rw [Meaning.seq_of]
      simp only [Meaning.of, filled_more_iff]
      constructor
      · rintro ⟨c, hwf, _, ⟨hwide, rest, ⟨hrest, rfl⟩, rfl⟩ | ⟨hwide, rest, ⟨hrest, rfl⟩, rfl⟩, rfl⟩
        · exact ⟨⟨c, hwf, .inl ⟨hwide, rest, hrest, rfl⟩⟩, by simp [encodeSlot]⟩
        · exact ⟨⟨c, hwf, .inr ⟨hwide, rest, hrest, rfl⟩⟩, by simp [encodeSlot]⟩
      · rintro ⟨⟨c, hwf, ⟨hwide, rest, hrest, rfl⟩ | ⟨hwide, rest, hrest, rfl⟩⟩, rfl⟩
        · exact ⟨c, hwf, _, .inl ⟨hwide, rest, ⟨hrest, rfl⟩, rfl⟩, by simp [encodeSlot]⟩
        · exact ⟨c, hwf, _, .inr ⟨hwide, rest, ⟨hrest, rfl⟩, rfl⟩, by simp [encodeSlot]⟩

/-- The slots that stand after a count of them, the unusable one included. -/
def AfterCount (count : Nat) : Meaning Pool := fun _ bytes p => ∃ slots, slots.length + 1 = count ∧ Filled slots ∧
  bytes = slots.flatMap encodeSlot ∧ p = ⟨(none :: slots).toArray⟩

/-- A constant pool is read exactly as it is laid out. -/
theorem exact_read : Exact (ofRead read) (Meaning.of WellFormed encode) := by
  unfold read
  refine (exact_u2.read_bind (S := AfterCount) fun count => ?_).congr fun before bytes p => ?_
  · cases count with
    | zero =>
      refine (exact_position.read_bind fun offset => Exact.read_throw (.emptyPool (offset - 2))).congr fun before bytes p => ?_
      simp [AfterCount, Meaning.seq]
    | succ left =>
      refine ((exact_readSlots left).read_bind_pure _).congr fun before bytes p => ?_
      simp only [AfterCount, Meaning.of, Nat.add_right_cancel_iff, and_assoc]
  · rw [Meaning.seq_of]
    constructor
    · rintro ⟨_, hsize, _, ⟨slots, rfl, hslots, rfl, rfl⟩, rfl⟩
      exact ⟨⟨by simpa [size] using hsize, slots, rfl, hslots⟩, by simp [encode, size, encodeSlot]⟩
    · rintro ⟨⟨hsize, slots, heq, hslots⟩, rfl⟩
      obtain ⟨⟨_⟩⟩ := p
      obtain rfl := heq
      exact ⟨_, hsize, _, ⟨slots, rfl, hslots, rfl, rfl⟩, by simp [encode, encodeSlot, size]⟩

end Pool

end Coupling.ClassFile
