import Coupling.Proofs.CodeReading

/-!
# Which bytes are code

The code of a method is well formed when it can be divided into instructions, from its start to its end. This is said here
in terms of bytes alone, with the table of operand widths that the virtual machine prescribes. A walk over any bytes ends
without a fault just when they can be divided so. There is then only one way to do it, and the walk names the classes that
these instructions name, in order. On all other bytes the walk ends because they are malformed.
-/

namespace Coupling.ClassFile

/-! ### Code -/

/-- How many bytes of operands follow the opcodes from `00` to `C9`. The entries at `AA`, `AB` and `C4`, where the width is
not fixed, mean nothing. -/
def operandWidths : List Nat :=
  [0, 0, 0, 0, 0, 0, 0, 0, 0, 0, 0, 0, 0, 0, 0, 0, -- 00
   1, 2, 1, 2, 2, 1, 1, 1, 1, 1, 0, 0, 0, 0, 0, 0, -- 10
   0, 0, 0, 0, 0, 0, 0, 0, 0, 0, 0, 0, 0, 0, 0, 0, -- 20
   0, 0, 0, 0, 0, 0, 1, 1, 1, 1, 1, 0, 0, 0, 0, 0, -- 30
   0, 0, 0, 0, 0, 0, 0, 0, 0, 0, 0, 0, 0, 0, 0, 0, -- 40
   0, 0, 0, 0, 0, 0, 0, 0, 0, 0, 0, 0, 0, 0, 0, 0, -- 50
   0, 0, 0, 0, 0, 0, 0, 0, 0, 0, 0, 0, 0, 0, 0, 0, -- 60
   0, 0, 0, 0, 0, 0, 0, 0, 0, 0, 0, 0, 0, 0, 0, 0, -- 70
   0, 0, 0, 0, 2, 0, 0, 0, 0, 0, 0, 0, 0, 0, 0, 0, -- 80
   0, 0, 0, 0, 0, 0, 0, 0, 0, 2, 2, 2, 2, 2, 2, 2, -- 90
   2, 2, 2, 2, 2, 2, 2, 2, 2, 1, 0, 0, 0, 0, 0, 0, -- A0
   0, 0, 2, 2, 2, 2, 2, 2, 2, 4, 4, 2, 1, 2, 0, 0, -- B0
   2, 2, 0, 0, 0, 3, 2, 2, 4, 4]                   -- C0

/-- The width of the operands of an opcode, if it is fixed. -/
def operandWidth? (opcode : UInt8) : Option Nat :=
  if opcode = 0xAA ∨ opcode = 0xAB ∨ opcode = 0xC4 then none else operandWidths[opcode.toNat]?

/-- The bytes from an opcode at an offset to the next multiple of four. -/
def IsPadding (offset : Nat) (padding : List UInt8) : Prop := padding.length < 4 ∧ 4 ∣ offset + 1 + padding.length

/-- The bytes of an instruction at an offset. -/
inductive IsInstruction (offset : Nat) : List UInt8 → Prop where
  /-- An opcode with operands of a fixed width. -/
  | plain {opcode : UInt8} {operands : List UInt8} :
    operandWidth? opcode = some operands.length → IsInstruction offset (opcode :: operands)
  /-- The wide form of an instruction, which is longer for the one that increments a variable. -/
  | wide {modified : UInt8} {operands : List UInt8} :
    operands.length = (if modified = 0x84 then 4 else 2) → IsInstruction offset (0xC4 :: modified :: operands)
  /-- A switch with an offset for each number of a range. -/
  | tableSwitch {padding default offsets : List UInt8} {low high : Int} : IsPadding offset padding → default.length = 4 →
    IsSigned32 low → IsSigned32 high → low ≤ high → (offsets.length : Int) = 4 * (high - low + 1) →
    IsInstruction offset (0xAA :: (padding ++ (default ++ (signedNumeral low ++ (signedNumeral high ++ offsets)))))
  /-- A switch with pairs of a number and an offset. -/
  | lookupSwitch {padding default pairs : List UInt8} {count : Int} : IsPadding offset padding → default.length = 4 →
    IsSigned32 count → 0 ≤ count → (pairs.length : Int) = 8 * count →
    IsInstruction offset (0xAB :: (padding ++ (default ++ (signedNumeral count ++ pairs))))

/-- A division of code into instructions, where the code begins at an offset. -/
inductive Divided : (offset : Nat) → (code : List UInt8) → List (List UInt8) → Prop where
  /-- No code is left. -/
  | nil {offset : Nat} : Divided offset [] []
  /-- One more instruction in front. -/
  | cons {offset : Nat} {first code : List UInt8} {pieces : List (List UInt8)} : IsInstruction offset first →
    Divided (offset + first.length) code pieces → Divided offset (first ++ code) (first :: pieces)

/-- Field accesses and calls name a class through a member, and the creation of objects and of arrays of them, casts and
tests name it themselves. -/
def refKind? (opcode : UInt8) : Option RefKind :=
  if opcode ∈ [0xB2, 0xB3, 0xB4, 0xB5, 0xB6, 0xB7, 0xB8, 0xB9] then some .member
  else if opcode ∈ [0xBB, 0xBD, 0xC0, 0xC1] then some .type
  else none

/-- What an instruction names: its opcode, and the number in the two bytes after it. -/
def named? : List UInt8 → Option Instruction.Ref
  | opcode :: a :: b :: _ => (refKind? opcode).map fun kind => ⟨opcode, kind, 256 * a.toNat + b.toNat⟩
  | _ => none

/-! ### Opcodes -/

namespace Shape

/-- The number of bytes that have a layout, if it is fixed. -/
def width? : Shape → Option Nat
  | reference _ extra => some (extra + 2)
  | plain width => some width
  | _ => none

/-- How a layout names a class, if it does. -/
def kind? : Shape → Option RefKind
  | reference kind _ => some kind
  | _ => none

end Shape

theorem operandWidth?_eq (opcode : UInt8) : operandWidth? opcode = (Shape.ofOpcode? opcode).bind Shape.width? := by
  have hall : ∀ n < 256, operandWidth? (UInt8.ofNat n) = (Shape.ofOpcode? (UInt8.ofNat n)).bind Shape.width? := by
    decide +kernel
  simpa using hall opcode.toNat opcode.toNat_lt

theorem refKind?_eq (opcode : UInt8) : refKind? opcode = (Shape.ofOpcode? opcode).bind Shape.kind? := by
  have hall : ∀ n < 256, refKind? (UInt8.ofNat n) = (Shape.ofOpcode? (UInt8.ofNat n)).bind Shape.kind? := by
    decide +kernel
  simpa using hall opcode.toNat opcode.toNat_lt

theorem isPadding_iff {offset : Nat} {padding : List UInt8} :
    IsPadding offset padding ↔ padding.length = Instruction.paddingWidth offset := by
  unfold IsPadding Instruction.paddingWidth
  omega

/-! ### One instruction -/

theorem numeral_two {a b : UInt8} : numeral 2 (256 * a.toNat + b.toNat) = [a, b] := by
  have hbytes : Reader.bigEndian [a, b] = 256 * a.toNat + b.toNat := by simp [Reader.bigEndian]
  rw [← hbytes]
  exact numeral_bigEndian [a, b]

/-- Operands of a fixed width are those of an instruction. -/
theorem exists_wellFormed_of_width {offset : Nat} {opcode : UInt8} {operands : List UInt8}
    (h : operandWidth? opcode = some operands.length) :
    ∃ i : Instruction, i.WellFormed offset ∧ opcode :: operands = i.encode := by
  rw [operandWidth?_eq, Option.bind_eq_some_iff] at h
  obtain ⟨shape, hshape, hwidth⟩ := h
  cases shape with
  | reference kind extra =>
    obtain ⟨a, b, rest, rfl⟩ : ∃ a b rest, operands = a :: b :: rest := by
      match operands, hwidth with
      | a :: b :: rest, _ => exact ⟨a, b, rest, rfl⟩
    obtain rfl : extra = rest.length := by simpa [Shape.width?] using hwidth
    have ha := a.toNat_lt
    have hb := b.toNat_lt
    refine ⟨.reference opcode kind (256 * a.toNat + b.toNat) rest, ⟨hshape, by omega⟩, ?_⟩
    rw [Instruction.encode, numeral_two]
    rfl
  | plain width =>
    obtain rfl : width = operands.length := by simpa [Shape.width?] using hwidth
    exact ⟨.plain opcode operands, hshape, rfl⟩
  | wide => cases hwidth
  | tableSwitch => cases hwidth
  | lookupSwitch => cases hwidth

/-- The bytes of instructions are those that instructions are laid out as. -/
theorem isInstruction_iff {offset : Nat} {bytes : List UInt8} :
    IsInstruction offset bytes ↔ ∃ i : Instruction, i.WellFormed offset ∧ bytes = i.encode := by
  constructor
  · intro h
    cases h with
    | plain hwidth => exact exists_wellFormed_of_width hwidth
    | @wide modified operands hlen => exact ⟨.wide modified operands, hlen, rfl⟩
    | @tableSwitch padding default offsets low high hpad hdefault hlow hhigh hle hlen =>
      exact ⟨.tableSwitch padding default low high offsets,
        ⟨isPadding_iff.1 hpad, hdefault, hlow, hhigh, hle, hlen⟩, rfl⟩
    | @lookupSwitch padding default pairs count hpad hdefault hcount hle hlen =>
      obtain ⟨n, rfl⟩ := Int.eq_ofNat_of_zero_le hle
      have hn := hcount.2
      exact ⟨.lookupSwitch padding default n pairs, ⟨isPadding_iff.1 hpad, hdefault, by omega, by omega⟩, rfl⟩
  · rintro ⟨i, hwf, rfl⟩
    cases i with
    | reference opcode kind index extra =>
      refine .plain ?_
      rw [operandWidth?_eq, hwf.1, List.length_append, length_numeral, Nat.add_comm]
      rfl
    | plain opcode operands =>
      refine .plain ?_
      rw [operandWidth?_eq, hwf]
      rfl
    | wide modified operands => exact .wide hwf
    | tableSwitch padding default low high offsets =>
      obtain ⟨hpad, hdefault, hlow, hhigh, hle, hlen⟩ := hwf
      exact .tableSwitch (isPadding_iff.2 hpad) hdefault hlow hhigh hle hlen
    | lookupSwitch padding default count pairs =>
      obtain ⟨hpad, hdefault, hcount, hlen⟩ := hwf
      exact .lookupSwitch (isPadding_iff.2 hpad) hdefault ⟨by omega, by omega⟩ (by omega) (by omega)

theorem named?_of_refKind? {opcode : UInt8} (h : refKind? opcode = none) (bytes : List UInt8) :
    named? (opcode :: bytes) = none := by
  match bytes with
  | [] | [_] => rfl
  | a :: b :: rest =>
    rw [named?, h]
    rfl

/-- An instruction names what its bytes name. -/
theorem named?_encode {offset : Nat} {i : Instruction} (h : i.WellFormed offset) : named? i.encode = i.ref? := by
  cases i with
  | reference opcode kind index extra =>
    obtain ⟨hshape, hindex⟩ := h
    have hkind : refKind? opcode = some kind := by
      rw [refKind?_eq, hshape]
      rfl
    have hnumber : 256 * (UInt8.ofNat (index / 256)).toNat + (UInt8.ofNat index).toNat = index := by
      rw [UInt8.toNat_ofNat', UInt8.toNat_ofNat']
      omega
    calc named? (opcode :: (numeral 2 index ++ extra))
      _ = (refKind? opcode).map fun kind =>
          ⟨opcode, kind, 256 * (UInt8.ofNat (index / 256)).toNat + (UInt8.ofNat index).toNat⟩ := rfl
      _ = some ⟨opcode, kind, index⟩ := by rw [hkind, hnumber, Option.map_some]
  | plain opcode operands =>
    refine named?_of_refKind? ?_ operands
    rw [refKind?_eq, h]
    rfl
  | wide modified operands => exact named?_of_refKind? rfl _
  | tableSwitch padding default low high offsets => exact named?_of_refKind? rfl _
  | lookupSwitch padding default count pairs => exact named?_of_refKind? rfl _

/-! ### Faults -/

section Faults

variable {α β : Type}

/-- A reading that fails only on malformed bytes. -/
def FailsMalformed (x : Read α) : Prop := ∀ (r : Reader) (f : Fault), x r = .error f → f.isMalformed = true

theorem FailsMalformed.pure (a : α) : FailsMalformed (pure a : Read α) := by
  intro r f h
  cases h

theorem FailsMalformed.throw {f : Fault} (hf : f.isMalformed = true) : FailsMalformed (throw f : Read α) := by
  intro r g h
  cases h
  exact hf

theorem FailsMalformed.bind {x : Read α} {k : α → Read β} (hx : FailsMalformed x) (hk : ∀ a, FailsMalformed (k a)) :
    FailsMalformed (x >>= k) := by
  intro r f h
  change (x r >>= fun p => k p.1 p.2) = .error f at h
  cases hread : x r with
  | error g =>
    rw [hread] at h
    cases h
    exact hx r _ hread
  | ok p =>
    rw [hread] at h
    exact hk p.1 p.2 f h

theorem FailsMalformed.map {x : Read α} (hx : FailsMalformed x) (k : α → β) : FailsMalformed (k <$> x) := by
  rw [map_eq_pure_bind]
  exact hx.bind fun a => .pure (k a)

theorem failsMalformed_bytes (n : Int) : FailsMalformed (Reader.bytes n) := by
  intro r f h
  unfold Reader.bytes Read.ofAccess at h
  obtain ⟨-, htake⟩ | ⟨_, _, _, -, -, htake⟩ := take_cases r n
  · rw [htake] at h
    cases h
    rfl
  · rw [htake] at h
    cases h

theorem failsMalformed_position : FailsMalformed Reader.position := by
  intro r f h
  cases h

/-- An instruction is refused only for malformed bytes. -/
theorem Instruction.failsMalformed_read : FailsMalformed Instruction.read := by
  have hu1 : FailsMalformed Reader.u1 := (failsMalformed_bytes 1).map _
  have hu2 : FailsMalformed Reader.u2 := (failsMalformed_bytes 2).map _
  have hs4 : FailsMalformed Reader.s4 := ((failsMalformed_bytes 4).map _).map _
  refine failsMalformed_position.bind fun offset => hu1.bind fun n => ?_
  dsimp only
  split
  · exact .throw rfl
  · exact hu2.bind fun index => (failsMalformed_bytes _).bind fun extra => .pure _
  · exact (failsMalformed_bytes _).bind fun operands => .pure _
  · exact hu1.bind fun modified => (failsMalformed_bytes _).bind fun operands => .pure _
  · refine (failsMalformed_bytes _).bind fun padding => (failsMalformed_bytes _).bind fun default =>
      hs4.bind fun low => hs4.bind fun high => ?_
    split
    · exact .throw rfl
    · exact (failsMalformed_bytes _).bind fun offsets => .pure _
  · refine (failsMalformed_bytes _).bind fun padding => (failsMalformed_bytes _).bind fun default =>
      hs4.bind fun count => ?_
    split
    · exact .throw rfl
    · exact (failsMalformed_bytes _).bind fun pairs => .pure _

end Faults

/-! ### Whole methods -/

namespace Walk

theorem isMalformed_of_fault {n : Nat} {r : Reader} {f : Fault} (h : (steps n r).fault = some f) :
    f.isMalformed = true := by
  induction n generalizing r with
  | zero => cases h
  | succ n ih =>
    rw [steps] at h
    split at h
    · cases h
    · split at h
      · next g hread =>
        cases h
        exact Instruction.failsMalformed_read r _ hread
      · exact ih h

/-- The divisions of code are the rows of instructions that it can be laid out as. -/
theorem divided_iff {offset : Nat} {code : List UInt8} {pieces : List (List UInt8)} : Divided offset code pieces ↔
    ∃ instructions, Instruction.Laid offset instructions ∧ code = instructions.flatMap Instruction.encode ∧
      pieces = instructions.map Instruction.encode := by
  constructor
  · intro h
    induction h with
    | nil => exact ⟨[], trivial, rfl, rfl⟩
    | cons hfirst _ ih =>
      obtain ⟨i, hwf, rfl⟩ := isInstruction_iff.1 hfirst
      obtain ⟨rest, hlaid, rfl, rfl⟩ := ih
      exact ⟨i :: rest, ⟨hwf, hlaid⟩, rfl, rfl⟩
  · rintro ⟨instructions, hlaid, rfl, rfl⟩
    induction instructions generalizing offset with
    | nil => exact .nil
    | cons i rest ih => exact .cons (isInstruction_iff.2 ⟨i, hlaid.1, rfl⟩) (ih hlaid.2)

theorem filterMap_named? {offset : Nat} {instructions : List Instruction} (h : Instruction.Laid offset instructions) :
    (instructions.map Instruction.encode).filterMap named? = instructions.filterMap Instruction.ref? := by
  induction instructions generalizing offset with
  | nil => rfl
  | cons i rest ih => simp only [List.map_cons, List.filterMap_cons, named?_encode h.1, ih h.2]

/-- A walk over any bytes comes to one of two ends. Either the bytes can be divided into instructions, in one way only; then
the walk takes them all and names what they name, in order. Or they cannot, and the walk ends at malformed bytes. -/
theorem ofCode_exact (code : List UInt8) :
    (∃ pieces, (ofCode code).fault = none ∧ (∀ pieces', Divided 0 code pieces' ↔ pieces' = pieces) ∧
      (ofCode code).refs = pieces.filterMap named?) ∨
    ∃ f, (ofCode code).fault = some f ∧ f.isMalformed = true ∧ ∀ pieces, ¬ Divided 0 code pieces := by
  cases hfault : (ofCode code).fault with
  | none =>
    obtain ⟨hlaid, hcode⟩ := ofCode_eq_iff.1 (show ofCode code = ⟨(ofCode code).instructions, none⟩ by rw [← hfault])
    refine .inl ⟨(ofCode code).instructions.map Instruction.encode, rfl, fun pieces' => ?_, (filterMap_named? hlaid).symm⟩
    rw [divided_iff]
    constructor
    · rintro ⟨instructions, hlaid', hcode', rfl⟩
      rw [ofCode_eq_iff.2 ⟨hlaid', hcode'⟩]
    · rintro rfl
      exact ⟨_, hlaid, hcode, rfl⟩
  | some f =>
    refine .inr ⟨f, rfl, isMalformed_of_fault hfault, fun pieces hpieces => ?_⟩
    obtain ⟨instructions, hlaid, hcode, -⟩ := divided_iff.1 hpieces
    rw [ofCode_eq_iff.2 ⟨hlaid, hcode⟩] at hfault
    cases hfault

end Walk

end Coupling.ClassFile
