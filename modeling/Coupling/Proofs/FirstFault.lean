import Coupling.ClassFile.Fault
import Coupling.Proofs.CodeUnits
import Mathlib.Order.Bounds.Defs

/-!
# The first fault of a text

The text of a class file is a row of forms, or it is refused for the first place where no form begins. That place is the
end of the longest beginning that is a row of forms: forms are told apart by their first byte, so reading them one by one
never has to go back. The place is counted in the bytes in which every `C0 80` is one zero byte already, and the message
shows it.
-/

namespace Coupling.ModifiedUtf8

open Utf8 (width)

/-- Each `C0 80` of the bytes is one zero byte in the others. -/
def IsReplaced (raw plain : List UInt8) : Prop :=
  ∃ parts : List (List UInt8), (∀ part ∈ parts, ¬ [0xC0, 0x80] <:+: part) ∧
    raw = [0xC0, 0x80].intercalate parts ∧ plain = [0].intercalate parts

/-- The lengths of the beginnings that are rows of forms. -/
def rowLengths (bytes : List UInt8) : Set Nat :=
  {n | ∃ good points, Row IsForm good points ∧ good <+: bytes ∧ good.length = n}

/-- A message that shows where the bytes of a text go wrong: at one byte, or from a byte to another. -/
def ShowsPosition (message : String) (position : Nat) : Prop :=
  (∃ byte reason : String,
    message = s!"invalid modified UTF-8: 'utf-8' codec can't decode byte 0x{byte} in position {position}: {reason}") ∨
  ∃ last reason : String,
    message = s!"invalid modified UTF-8: 'utf-8' codec can't decode bytes in position {position}-{last}: {reason}"

theorem spells_iff {raw : List UInt8} {text : Text} :
    Spells raw text ↔ ∃ points, Row IsForm raw points ∧ Joins points text := by
  simp only [Spells, joins_iff]

/-! ### The replacement -/

/-- Nothing is replaced in a part without `C0 80`. -/
theorem plainZero_part {part rest : List UInt8} (hpart : ¬ [0xC0, 0x80] <:+: part) (hrest : rest.head? ≠ some 0x80) :
    plainZero (part ++ rest) = part ++ plainZero rest := by
  induction part with
  | nil => rfl
  | cons a part ih =>
    rw [List.infix_cons_iff, not_or] at hpart
    have hnext : ¬ (a = 0xC0 ∧ (part ++ rest).head? = some 0x80) := by
      rintro ⟨rfl, hhead⟩
      cases part with
      | nil => exact hrest hhead
      | cons b part =>
        cases hhead
        exact hpart.1 ⟨part, rfl⟩
    rw [List.cons_append, plainZero_cons hnext, ih hpart.2, List.cons_append]

theorem plainZero_intercalate {parts : List (List UInt8)} (h : ∀ part ∈ parts, ¬ [0xC0, 0x80] <:+: part) :
    plainZero ([0xC0, 0x80].intercalate parts) = [0].intercalate parts := by
  induction parts with
  | nil => rfl
  | cons part parts ih =>
    obtain ⟨hpart, hparts⟩ := List.forall_mem_cons.1 h
    cases parts with
    | nil =>
      have hend : ([] : List UInt8).head? ≠ some 0x80 := by simp
      have hread := plainZero_part hpart hend
      rw [List.append_nil, plainZero, List.append_nil] at hread
      rw [List.intercalate_singleton, List.intercalate_singleton, hread]
    | cons next parts =>
      have hpair : (0xC0 :: 0x80 :: [0xC0, 0x80].intercalate (next :: parts)).head? ≠ some 0x80 := by simp
      have hread := plainZero_part hpart hpair
      rw [plainZero, if_pos ⟨rfl, rfl⟩, ih hparts] at hread
      simpa [List.intercalate_cons_cons] using hread

theorem exists_parts (raw : List UInt8) : ∃ part parts, (∀ p ∈ part :: parts, ¬ [0xC0, 0x80] <:+: p) ∧
    raw = [0xC0, 0x80].intercalate (part :: parts) := by
  induction raw using plainZero.induct with
  | case1 => exact ⟨[], [], by simp, rfl⟩
  | case2 a => exact ⟨[a], [], by simp [List.infix_cons_iff], by simp⟩
  | case3 a b rest hab ih =>
    obtain ⟨rfl, rfl⟩ := hab
    obtain ⟨part, parts, hparts, rfl⟩ := ih
    refine ⟨[], part :: parts, List.forall_mem_cons.2 ⟨by simp, hparts⟩, ?_⟩
    rw [List.intercalate_cons_cons]
    rfl
  | case4 a b rest hab ih =>
    obtain ⟨part, parts, hparts, heq⟩ := ih
    obtain ⟨hpart, hparts⟩ := List.forall_mem_cons.1 hparts
    refine ⟨a :: part, parts, List.forall_mem_cons.2 ⟨fun hinfix => ?_, hparts⟩, ?_⟩
    -- A `C0 80` that is not in the old part begins with `a`, and then `b` is its second byte.
    · rcases List.infix_cons_iff.1 hinfix with ⟨more, hmore⟩ | hinfix
      · cases hmore
        cases parts <;> cases heq <;> exact hab ⟨rfl, rfl⟩
      · exact hpart hinfix
    · cases parts <;> simp [heq, List.intercalate_cons_cons]

theorem isReplaced_iff {raw plain : List UInt8} : IsReplaced raw plain ↔ plain = plainZero raw := by
  constructor
  · rintro ⟨parts, hparts, rfl, rfl⟩
    rw [plainZero_intercalate hparts]
  · rintro rfl
    obtain ⟨part, parts, hparts, rfl⟩ := exists_parts raw
    exact ⟨part :: parts, hparts, rfl, plainZero_intercalate hparts⟩

theorem plainZero_ne_pair (s t : List UInt8) : plainZero s ≠ 0xC0 :: 0x80 :: t := by
  intro h
  rcases plainZero_eq_cons h with ⟨s', rfl, hs'⟩ | ⟨hzero, -⟩
  · rcases plainZero_eq_cons hs' with ⟨s'', rfl, -⟩ | ⟨hzero, -⟩
    · rw [plainZero, if_pos ⟨rfl, rfl⟩] at h
      exact absurd (List.cons.inj h).1 (by decide)
    · exact absurd hzero (by decide)
  · exact absurd hzero (by decide)

/-- What follows some of the bytes comes from the replacement in a part of the text. -/
theorem exists_plainZero_eq {s front back : List UInt8} (h : plainZero s = front ++ back) : ∃ s', plainZero s' = back := by
  induction front generalizing s with
  | nil => exact ⟨s, h⟩
  | cons a front ih =>
    rcases plainZero_eq_cons h with ⟨s', -, hs'⟩ | ⟨-, s', -, hs'⟩
    · exact ih hs'
    · exact ih hs'

/-- After the replacement all forms are plain. -/
theorem row_isPlain {s good rest : List UInt8} {points : Text} (h : Row IsForm good points)
    (hs : plainZero s = good ++ rest) : Row IsPlain good points := by
  induction h generalizing s with
  | nil => exact .nil
  | @cons first bytes c points hform _ ih =>
    rw [List.append_assoc] at hs
    rcases hform with hform | ⟨rfl, -⟩
    · obtain ⟨s', hs'⟩ := exists_plainZero_eq hs
      exact .cons hform (ih hs')
    · exact absurd hs (plainZero_ne_pair s (bytes ++ rest))

/-! ### Reading up to a fault -/

/-- A fault stands after a row of plain forms. -/
theorem exists_row_of_units {position : Nat} {s : List UInt8} {f : Fault} (h : units position s = .error f) :
    ∃ good points, Row IsPlain good points ∧ good <+: s ∧ f.position = position + good.length := by
  fun_induction units position s with
  | case1 => cases h
  | case2 =>
    cases h
    exact ⟨[], [], .nil, List.nil_prefix, rfl⟩
  | case3 position a s c s' hread _ ih =>
    cases hrest : units (position + width a) s' with
    | ok points =>
      rw [hrest] at h
      cases h
    | error f' =>
      rw [hrest] at h
      cases h
      obtain ⟨good, points, hrow, hgood, hposition⟩ := ih hrest
      obtain ⟨form, hform, heq⟩ := isPlain_of_afterLead hread
      obtain ⟨b, more, rfl, -⟩ := afterLead_of_isPlain hform
      obtain ⟨rfl, -⟩ := List.cons.inj heq
      refine ⟨a :: more ++ good, c :: points, .cons hform hrow, ?_, ?_⟩
      · rw [heq]
        exact (List.prefix_append_right_inj _).2 hgood
      · rw [hposition, hform.width_eq, List.length_append, Nat.add_assoc]

/-- No row of plain forms goes on beyond a fault. -/
theorem length_le_of_units {position : Nat} {s good : List UInt8} {points : Text} {f : Fault}
    (h : units position s = .error f) (hrow : Row IsPlain good points) (hgood : good <+: s) :
    position + good.length ≤ f.position := by
  obtain ⟨rest, rfl⟩ := hgood
  -- Reading goes through the whole row, so the fault is one of what follows it.
  rw [units_append hrow] at h
  cases hrest : units (position + good.length) rest with
  | ok points' =>
    rw [hrest] at h
    cases h
  | error f' =>
    rw [hrest] at h
    cases h
    obtain ⟨good', -, -, -, hposition⟩ := exists_row_of_units hrest
    omega

theorem Row.mono {form form' : List UInt8 → CodePoint → Prop} (hform : ∀ first c, form first c → form' first c)
    {bytes : List UInt8} {points : Text} (h : Row form bytes points) : Row form' bytes points := by
  induction h with
  | nil => exact .nil
  | cons hfirst _ ih => exact .cons (hform _ _ hfirst) ih

theorem decode_eq_error {raw : List UInt8} {f : Fault} :
    decode raw = .error f ↔ units 0 (plainZero raw) = .error f := by
  rw [decode]
  cases units 0 (plainZero raw) with
  | error f' => simp [Except.map]
  | ok points => simp [Except.map]

/-- The position of a fault is the length of the longest beginning that is a row of forms. -/
theorem isGreatest_position {raw : List UInt8} {f : Fault} (h : decode raw = .error f) :
    IsGreatest (rowLengths (plainZero raw)) f.position := by
  rw [decode_eq_error] at h
  constructor
  · obtain ⟨good, points, hrow, hgood, hposition⟩ := exists_row_of_units h
    refine ⟨good, points, hrow.mono fun _ _ => .inl, hgood, ?_⟩
    rw [hposition, Nat.zero_add]
  · rintro _ ⟨good, points, hrow, ⟨rest, hrest⟩, rfl⟩
    have hplain := row_isPlain hrow hrest.symm
    have hle := length_le_of_units h hplain ⟨rest, hrest⟩
    rwa [Nat.zero_add] at hle

/-! ### What is reported -/

theorem message_badText (f : Fault) : (ClassFile.Fault.badText f).message = "invalid modified UTF-8: " ++ f.message := rfl

theorem showsPosition_message (f : Fault) : ShowsPosition (ClassFile.Fault.badText f).message f.position := by
  have hmessage := message_badText f
  unfold Fault.message at hmessage
  by_cases hcount : f.count ≤ 1
  · rw [if_pos hcount] at hmessage
    refine .inl ⟨Hex.digits 2 f.lead.toNat, f.reason.message, ?_⟩
    rw [hmessage]
    simp only [String.append_assoc]
    rfl
  · rw [if_neg hcount] at hmessage
    refine .inr ⟨toString (f.position + f.count - 1), f.reason.message, ?_⟩
    rw [hmessage]
    simp only [String.append_assoc]
    rfl

/-- Reading succeeds exactly on rows of forms, and gives their code points with the pairs joined. On all other bytes it
reports a fault of the format, and the position that is shown is the length of the longest beginning that is a row of
forms, once every `C0 80` is replaced. -/
theorem decode_exact (raw : List UInt8) :
    ((∃ text, decode raw = .ok text) ↔ ∃ points, Row IsForm raw points) ∧
    (∀ text, decode raw = .ok text ↔ ∃ points, Row IsForm raw points ∧ Joins points text) ∧
    ((¬ ∃ points, Row IsForm raw points) → ∃ f position plain, decode raw = .error f ∧
      (ClassFile.Fault.badText f).isMalformed = true ∧ ShowsPosition (ClassFile.Fault.badText f).message position ∧
      (∀ plain', IsReplaced raw plain' ↔ plain' = plain) ∧ IsGreatest (rowLengths plain) position) := by
  have hok (text : Text) : decode raw = .ok text ↔ ∃ points, Row IsForm raw points ∧ Joins points text := by
    rw [decode_eq_ok, spells_iff]
  have hsucceeds : (∃ text, decode raw = .ok text) ↔ ∃ points, Row IsForm raw points := by
    constructor
    · rintro ⟨text, htext⟩
      obtain ⟨points, hrow, -⟩ := (hok text).1 htext
      exact ⟨points, hrow⟩
    · rintro ⟨points, hrow⟩
      exact ⟨joinPairs points, (hok _).2 ⟨points, hrow, joins_joinPairs points⟩⟩
  refine ⟨hsucceeds, hok, fun hnone => ?_⟩
  cases hdecode : decode raw with
  | ok text => exact absurd (hsucceeds.1 ⟨text, hdecode⟩) hnone
  | error f =>
    exact ⟨f, f.position, plainZero raw, rfl, rfl, showsPosition_message f, fun plain' => isReplaced_iff,
      isGreatest_position hdecode⟩

end Coupling.ModifiedUtf8
