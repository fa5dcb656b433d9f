import Coupling.Proofs.Layout

/-!
# Reading the code of a method

An instruction is read exactly as it is laid out at its offset. The opcode decides the layout of the operands, and the
operands of the two switches also depend on the offset. A walk over the code ends without a fault just when instructions
fill the code to its end.
-/

namespace Coupling.ClassFile

open Decoder

/-! ### Opcodes -/

namespace Shape

/-- The opcode of the layouts that belong to only one. -/
def opcode? : Shape → Option UInt8
  | wide => some 0xC4
  | tableSwitch => some 0xAA
  | lookupSwitch => some 0xAB
  | _ => none

theorem opcode?_ofOpcode? (opcode : UInt8) : ∀ single ∈ (ofOpcode? opcode).bind opcode?, opcode = single := by
  have hall : ∀ n < 256, ∀ single ∈ (ofOpcode? (UInt8.ofNat n)).bind opcode?, UInt8.ofNat n = single := by
    decide +kernel
  simpa using hall opcode.toNat opcode.toNat_lt

theorem ofOpcode?_eq_some_iff {shape : Shape} {opcode single : UInt8} (h : shape.opcode? = some single) :
    ofOpcode? opcode = some shape ↔ opcode = single := by
  constructor
  · intro hshape
    exact opcode?_ofOpcode? opcode single (by rw [hshape]; exact h)
  · rintro rfl
    cases shape <;> cases h <;> rfl

end Shape

namespace Instruction

/-! ### One instruction -/

/-- The bytes that follow an opcode at an offset, by the layout of the operands. -/
def Operands (offset : Nat) (opcode : UInt8) : Shape → Meaning Instruction
  | .reference kind extra => fun _ bytes i => ∃ index rest, index < 2 ^ 16 ∧ rest.length = extra ∧
      bytes = numeral 2 index ++ rest ∧ i = reference opcode kind index rest
  | .plain width => fun _ bytes i => bytes.length = width ∧ i = plain opcode bytes
  | .wide => fun _ bytes i => ∃ modified operands, operands.length = (if modified = iinc then 4 else 2) ∧
      bytes = modified :: operands ∧ i = wide modified operands
  | .tableSwitch => fun _ bytes i => ∃ padding default low high offsets,
      (tableSwitch padding default low high offsets).WellFormed offset ∧
      bytes = padding ++ (default ++ (signedNumeral low ++ (signedNumeral high ++ offsets))) ∧
      i = tableSwitch padding default low high offsets
  | .lookupSwitch => fun _ bytes i => ∃ padding default count pairs,
      (lookupSwitch padding default count pairs).WellFormed offset ∧
      bytes = padding ++ (default ++ (signedNumeral count ++ pairs)) ∧ i = lookupSwitch padding default count pairs

/-- An instruction is an opcode that has a layout, and operands of this layout. -/
theorem wellFormed_iff {offset : Nat} {opcode : UInt8} {before bytes : List UInt8} {i : Instruction} :
    i.WellFormed offset ∧ i.encode = opcode :: bytes ↔
      ∃ shape, Shape.ofOpcode? opcode = some shape ∧ Operands offset opcode shape before bytes i := by
  constructor
  · rintro ⟨hwf, hencode⟩
    cases i with
    | reference op kind index extra =>
      obtain ⟨rfl, rfl⟩ := List.cons.inj hencode
      exact ⟨_, hwf.1, index, extra, hwf.2, rfl, rfl, rfl⟩
    | plain op operands =>
      obtain ⟨rfl, rfl⟩ := List.cons.inj hencode
      exact ⟨_, hwf, rfl, rfl⟩
    | wide modified operands =>
      obtain ⟨rfl, rfl⟩ := List.cons.inj hencode
      exact ⟨.wide, (Shape.ofOpcode?_eq_some_iff rfl).2 rfl, modified, operands, hwf, rfl, rfl⟩
    | tableSwitch padding default low high offsets =>
      obtain ⟨rfl, rfl⟩ := List.cons.inj hencode
      exact ⟨.tableSwitch, (Shape.ofOpcode?_eq_some_iff rfl).2 rfl, padding, default, low, high, offsets, hwf, rfl, rfl⟩
    | lookupSwitch padding default count pairs =>
      obtain ⟨rfl, rfl⟩ := List.cons.inj hencode
      exact ⟨.lookupSwitch, (Shape.ofOpcode?_eq_some_iff rfl).2 rfl, padding, default, count, pairs, hwf, rfl, rfl⟩
  · rintro ⟨shape, hshape, h⟩
    cases shape with
    | reference kind extra =>
      obtain ⟨index, rest, hindex, rfl, rfl, rfl⟩ := h
      exact ⟨⟨hshape, hindex⟩, rfl⟩
    | plain width =>
      obtain ⟨rfl, rfl⟩ := h
      exact ⟨hshape, rfl⟩
    | wide =>
      obtain ⟨modified, operands, hlen, rfl, rfl⟩ := h
      rw [(Shape.ofOpcode?_eq_some_iff rfl).1 hshape]
      exact ⟨hlen, rfl⟩
    | tableSwitch =>
      obtain ⟨padding, default, low, high, offsets, hwf, rfl, rfl⟩ := h
      rw [(Shape.ofOpcode?_eq_some_iff rfl).1 hshape]
      exact ⟨hwf, rfl⟩
    | lookupSwitch =>
      obtain ⟨padding, default, count, pairs, hwf, rfl, rfl⟩ := h
      rw [(Shape.ofOpcode?_eq_some_iff rfl).1 hshape]
      exact ⟨hwf, rfl⟩

theorem exact_reference (offset : Nat) (opcode : UInt8) (kind : RefKind) (extra : Nat) : Exact (ofRead (do
    let index ← Reader.u2
    pure (reference opcode kind index (← Reader.bytes extra)))) (Operands offset opcode (.reference kind extra)) := by
  refine (exact_u2.read_bind fun index => (exact_bytes extra).read_bind fun rest =>
    Exact.read_pure (reference opcode kind index rest)).congr fun before bytes i => ?_
  simp only [Meaning.seq_of, Meaning.behind_seq_of, Meaning.behind_nothing]
  constructor
  · rintro ⟨index, hindex, rest, hlen, rfl, rfl⟩
    exact ⟨index, rest, hindex, by omega, rfl, rfl⟩
  · rintro ⟨index, rest, hindex, rfl, rfl, rfl⟩
    exact ⟨index, hindex, rest, rfl, rfl, rfl⟩

theorem exact_plain (offset : Nat) (opcode : UInt8) (width : Nat) :
    Exact (ofRead (do pure (plain opcode (← Reader.bytes width)))) (Operands offset opcode (.plain width)) := by
  refine ((exact_bytes width).read_bind_pure _).congr fun before bytes i => ?_
  constructor
  · rintro ⟨operands, ⟨hlen, rfl⟩, rfl⟩
    exact ⟨by omega, rfl⟩
  · rintro ⟨rfl, rfl⟩
    exact ⟨bytes, ⟨rfl, rfl⟩, rfl⟩

theorem exact_wide (offset : Nat) (opcode : UInt8) : Exact (ofRead (do
    let modified := UInt8.ofNat (← Reader.u1)
    pure (wide modified (← Reader.bytes (if modified = iinc then 4 else 2))))) (Operands offset opcode .wide) := by
  refine (exact_u1.read_bind fun n => (exact_bytes _).read_bind_pure _).congr fun before bytes i => ?_
  constructor
  · rintro ⟨_, _, operands, ⟨modified, rfl, rfl⟩, hoperands, rfl⟩
    obtain ⟨_, ⟨hlen, rfl⟩, rfl⟩ := hoperands
    simp only [UInt8.ofNat_toNat] at hlen ⊢
    exact ⟨modified, operands, by grind, rfl, rfl⟩
  · rintro ⟨modified, operands, hlen, rfl, rfl⟩
    refine ⟨_, [modified], operands, ⟨modified, rfl, rfl⟩, ?_, rfl⟩
    simp only [UInt8.ofNat_toNat]
    exact ⟨operands, ⟨by grind, rfl⟩, rfl⟩

/-- What follows the bounds of a table of offsets. -/
def Offsets (padding default : List UInt8) (low high : Int) : Meaning Instruction := fun _ bytes i =>
  low ≤ high ∧ (bytes.length : Int) = 4 * (high - low + 1) ∧ i = tableSwitch padding default low high bytes

theorem exact_tableSwitch (offset : Nat) (opcode : UInt8) : Exact (ofRead (do
    let padding ← Reader.bytes (paddingWidth offset)
    let default ← Reader.bytes 4
    let low ← Reader.s4
    let high ← Reader.s4
    if high < low then throw (.emptySwitch offset)
    else pure (tableSwitch padding default low high (← Reader.bytes (4 * (high - low + 1))))))
    (Operands offset opcode .tableSwitch) := by
  refine ((exact_bytes _).read_bind fun padding => (exact_bytes _).read_bind fun default => exact_s4.read_bind fun low =>
    exact_s4.read_bind (S := Offsets padding default low) fun high => ?_).congr fun before bytes i => ?_
  · split
    · next hlt =>
      refine (Exact.read_throw _).congr fun before bytes i => ?_
      simp only [Offsets, false_iff]
      omega
    · next hle =>
      refine ((exact_bytes _).read_bind_pure _).congr fun before bytes i => ?_
      constructor
      · rintro ⟨offsets, ⟨hlen, rfl⟩, rfl⟩
        exact ⟨by omega, hlen, rfl⟩
      · rintro ⟨-, hlen, rfl⟩
        exact ⟨bytes, ⟨hlen, rfl⟩, rfl⟩
  · simp only [Meaning.seq_of, Meaning.behind_seq_of, List.append_assoc]
    constructor
    · rintro ⟨padding, hpad, default, hdefault, low, hlow, high, hhigh, offsets, ⟨hle, hlen, rfl⟩, rfl⟩
      exact ⟨padding, default, low, high, offsets, ⟨by omega, by omega, hlow, hhigh, hle, hlen⟩, by simp, rfl⟩
    · rintro ⟨padding, default, low, high, offsets, ⟨hpad, hdefault, hlow, hhigh, hle, hlen⟩, rfl, rfl⟩
      exact ⟨padding, by omega, default, by omega, low, hlow, high, hhigh, offsets, ⟨hle, hlen, rfl⟩, by simp⟩

/-- What follows the number of pairs. -/
def Pairs (padding default : List UInt8) (count : Int) : Meaning Instruction := fun _ bytes i =>
  0 ≤ count ∧ (bytes.length : Int) = 8 * count ∧ i = lookupSwitch padding default count.toNat bytes

theorem exact_lookupSwitch (offset : Nat) (opcode : UInt8) : Exact (ofRead (do
    let padding ← Reader.bytes (paddingWidth offset)
    let default ← Reader.bytes 4
    let count ← Reader.s4
    if count < 0 then throw (.negativePairs offset)
    else pure (lookupSwitch padding default count.toNat (← Reader.bytes (8 * count)))))
    (Operands offset opcode .lookupSwitch) := by
  refine ((exact_bytes _).read_bind fun padding => (exact_bytes _).read_bind fun default =>
    exact_s4.read_bind (S := Pairs padding default) fun count => ?_).congr fun before bytes i => ?_
  · split
    · next hlt =>
      refine (Exact.read_throw _).congr fun before bytes i => ?_
      simp only [Pairs, false_iff]
      omega
    · next hle =>
      refine ((exact_bytes _).read_bind_pure _).congr fun before bytes i => ?_
      constructor
      · rintro ⟨pairs, ⟨hlen, rfl⟩, rfl⟩
        exact ⟨by omega, hlen, rfl⟩
      · rintro ⟨-, hlen, rfl⟩
        exact ⟨bytes, ⟨hlen, rfl⟩, rfl⟩
  · simp only [Meaning.seq_of, Meaning.behind_seq_of, List.append_assoc]
    constructor
    · rintro ⟨padding, hpad, default, hdefault, count, hcount, pairs, ⟨hle, hlen, rfl⟩, rfl⟩
      obtain ⟨count, rfl⟩ := Int.eq_ofNat_of_zero_le hle
      have := hcount.2
      exact ⟨padding, default, count, pairs, ⟨by omega, by omega, by omega, by omega⟩, by simp, rfl⟩
    · rintro ⟨padding, default, count, pairs, ⟨hpad, hdefault, hcount, hlen⟩, rfl, rfl⟩
      exact ⟨padding, by omega, default, by omega, count, ⟨by omega, by omega⟩, pairs, ⟨by omega, by omega, rfl⟩, by simp⟩

/-- An instruction begins with its opcode. -/
theorem encode_eq_cons (i : Instruction) : ∃ opcode bytes, i.encode = opcode :: bytes := by
  cases i <;> exact ⟨_, _, rfl⟩

/-- What follows an opcode, which tells its shape. -/
def AfterOpcode (offset : Nat) (opcode : UInt8) : Meaning Instruction := fun before bytes i =>
  ∃ shape, Shape.ofOpcode? opcode = some shape ∧ Operands offset opcode shape before bytes i

/-- An instruction is read exactly as it is laid out where it stands. -/
theorem exact_read :
    Exact (ofRead read) fun before bytes i => i.WellFormed before.length ∧ bytes = i.encode := by
  unfold read
  refine (exact_byte_bind (S := AfterOpcode) fun offset n => ?_).congr fun before bytes i => ?_
  · unfold AfterOpcode
    generalize UInt8.ofNat n = opcode
    dsimp only
    split
    · next h =>
      refine (Exact.read_throw _).congr fun before bytes i => ?_
      simp [h]
    · next h => exact (exact_reference offset opcode _ _).congr (by simp [h])
    · next h => exact (exact_plain offset opcode _).congr (by simp [h])
    · next h => exact (exact_wide offset opcode).congr (by simp [h])
    · next h => exact (exact_tableSwitch offset opcode).congr (by simp [h])
    · next h => exact (exact_lookupSwitch offset opcode).congr (by simp [h])
  · constructor
    · rintro ⟨opcode, rest, hafter, rfl⟩
      obtain ⟨hwf, hencode⟩ := wellFormed_iff.2 hafter
      exact ⟨hwf, hencode.symm⟩
    · rintro ⟨hwf, rfl⟩
      obtain ⟨opcode, rest, hencode⟩ := i.encode_eq_cons
      exact ⟨opcode, rest, wellFormed_iff.1 ⟨hwf, hencode⟩, hencode⟩

theorem encode_ne_nil (i : Instruction) : i.encode ≠ [] := by
  obtain ⟨opcode, bytes, hencode⟩ := i.encode_eq_cons
  rw [hencode]
  exact List.cons_ne_nil opcode bytes

end Instruction

/-! ### Walks -/

namespace Walk

open Instruction

theorem steps_of_empty {r : Reader} {before : List UInt8} (hr : r.Between before []) (n : Nat) :
    steps n r = ⟨[], none⟩ := by
  cases n with
  | zero => rfl
  | succ n =>
    have hremaining : r.remaining = 0 := hr.remaining_eq
    rw [steps, if_pos hremaining]

/-- A walk takes the instruction it stands at, and goes on behind it. -/
theorem steps_succ_eq_iff {n : Nat} {r : Reader} {before after : List UInt8} (hr : r.Between before after)
    (hne : after ≠ []) {instructions : List Instruction} : steps (n + 1) r = ⟨instructions, none⟩ ↔
      ∃ i r' rest, Instruction.read r = .ok (i, r') ∧ steps n r' = ⟨rest, none⟩ ∧ instructions = i :: rest := by
  have hremaining : r.remaining ≠ 0 := by
    rw [hr.remaining_eq]
    exact fun hlen => hne (List.length_eq_zero_iff.1 (Int.ofNat_eq_zero.1 hlen))
  rw [steps, if_neg hremaining]
  cases h : Instruction.read r with
  | error f => simp
  | ok p =>
    obtain ⟨i, r'⟩ := p
    simp only [mk.injEq, Except.ok.injEq, Prod.mk.injEq]
    constructor
    · rintro ⟨rfl, hfault⟩
      exact ⟨i, r', _, ⟨rfl, rfl⟩, congrArg (mk _) hfault, rfl⟩
    · rintro ⟨_, _, rest, ⟨rfl, rfl⟩, hsteps, rfl⟩
      rw [hsteps]
      exact ⟨rfl, rfl⟩

theorem laid_nil_iff {offset : Nat} {instructions : List Instruction} :
    instructions = [] ↔ Laid offset instructions ∧ [] = instructions.flatMap encode := by
  cases instructions with
  | nil => simp [Laid]
  | cons i rest => simp [i.encode_ne_nil]

/-- The walk from some place on ends without a fault just when instructions fill the rest of the code. -/
theorem steps_eq_iff {n : Nat} {r : Reader} {before after : List UInt8} (hr : r.Between before after)
    (hn : after.length ≤ n) {instructions : List Instruction} : steps n r = ⟨instructions, none⟩ ↔
      Laid before.length instructions ∧ after = instructions.flatMap encode := by
  -- Each instruction takes a byte or more, so the bytes that are left bound the steps.
  induction n generalizing r before after instructions with
  | zero =>
    obtain rfl : after = [] := List.length_eq_zero_iff.1 (Nat.le_zero.1 hn)
    rw [steps_of_empty hr, ← laid_nil_iff]
    simp [eq_comm]
  | succ n ih =>
    by_cases hne : after = []
    · subst hne
      rw [steps_of_empty hr, ← laid_nil_iff]
      simp [eq_comm]
    · rw [steps_succ_eq_iff hr hne]
      constructor
      · rintro ⟨i, r', rest, hread, hsteps, rfl⟩
        obtain ⟨_, left, ⟨hwf, rfl⟩, rfl, hr'⟩ := exact_read.read_sound hr hread
        have hpos := List.length_pos_iff.2 i.encode_ne_nil
        rw [List.length_append] at hn
        obtain ⟨hlaid, rfl⟩ := (ih hr' (by omega)).1 hsteps
        rw [List.length_append] at hlaid
        exact ⟨⟨hwf, hlaid⟩, rfl⟩
      · rintro ⟨hlaid, rfl⟩
        cases instructions with
        | nil => exact absurd rfl hne
        | cons i rest =>
          rw [List.flatMap_cons] at hr hn
          obtain ⟨r', hread, hr'⟩ := exact_read.read_whole ⟨hlaid.1, rfl⟩ hr
          have hpos := List.length_pos_iff.2 i.encode_ne_nil
          rw [List.length_append] at hn
          refine ⟨i, r', rest, hread, (ih hr' (by omega)).2 ⟨?_, rfl⟩, rfl⟩
          rw [List.length_append]
          exact hlaid.2

/-- A walk over a method ends without a fault just when instructions fill its code. -/
theorem ofCode_eq_iff {code : List UInt8} {instructions : List Instruction} :
    ofCode code = ⟨instructions, none⟩ ↔ Laid 0 instructions ∧ code = instructions.flatMap encode :=
  steps_eq_iff (.start code) le_rfl

end Walk

end Coupling.ClassFile
