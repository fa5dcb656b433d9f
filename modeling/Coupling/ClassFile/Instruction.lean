import Coupling.ClassFile.Reader

/-!
# Instructions

The code of a method is a row of instructions, each an opcode and its operands. Most have a fixed width. The two switch
instructions begin their operands at the next multiple of four from the start of the code, and their length depends on
what they hold; the prefix `wide` doubles the operands of the instruction after it. Only the instructions that name a
class through the constant pool matter here: those that access a field or call a method, and those that name a type.
-/

namespace Coupling.ClassFile

/-- What a class-naming instruction points at. -/
inductive RefKind where
  /-- A field or a method. -/
  | member
  /-- A class. -/
  | type
  deriving DecidableEq

/-- How the operands of an instruction are laid out. -/
inductive Shape where
  /-- An index into the constant pool, and some more bytes. -/
  | reference (kind : RefKind) (extra : Nat)
  /-- Bytes that mean nothing here. -/
  | plain (width : Nat)
  /-- One more opcode, and the wide form of its operands. -/
  | wide
  /-- A switch with an offset for each number of a range. -/
  | tableSwitch
  /-- A switch with pairs of a number and an offset. -/
  | lookupSwitch
  deriving DecidableEq

/-- The layout that belongs to an opcode. -/
def Shape.ofOpcode? (opcode : UInt8) : Option Shape :=
  let n := opcode.toNat
  if 0xB2 ≤ n ∧ n ≤ 0xB8 then some (.reference .member 0)
  else if n = 0xB9 then some (.reference .member 2)
  else if n = 0xBB ∨ n = 0xBD ∨ n = 0xC0 ∨ n = 0xC1 then some (.reference .type 0)
  else if n = 0xAA then some .tableSwitch
  else if n = 0xAB then some .lookupSwitch
  else if n = 0xC4 then some .wide
  else if n = 0x10 ∨ n = 0x12 ∨ (0x15 ≤ n ∧ n ≤ 0x19) ∨ (0x36 ≤ n ∧ n ≤ 0x3A) ∨ n = 0xA9 ∨ n = 0xBC then some (.plain 1)
  else if n = 0x11 ∨ n = 0x13 ∨ n = 0x14 ∨ n = 0x84 ∨ (0x99 ≤ n ∧ n ≤ 0xA8) ∨ n = 0xC6 ∨ n = 0xC7 then some (.plain 2)
  else if n = 0xC5 then some (.plain 3)
  else if n = 0xBA ∨ n = 0xC8 ∨ n = 0xC9 then some (.plain 4)
  else if n ≤ 0xC9 then some (.plain 0)
  else none

/-- The opcode whose wide form has two operands. -/
def iinc : UInt8 := 0x84

/-- An instruction, with all its bytes. -/
inductive Instruction where
  /-- Names a class through the constant pool. -/
  | reference (opcode : UInt8) (kind : RefKind) (index : Nat) (extra : List UInt8)
  /-- Operands of a fixed width that name nothing. -/
  | plain (opcode : UInt8) (operands : List UInt8)
  /-- The wide form of an instruction. -/
  | wide (modified : UInt8) (operands : List UInt8)
  /-- A jump by the numbers from `low` to `high`. -/
  | tableSwitch (padding default : List UInt8) (low high : Int) (offsets : List UInt8)
  /-- A jump by the numbers listed. -/
  | lookupSwitch (padding default : List UInt8) (count : Nat) (pairs : List UInt8)
  deriving DecidableEq

namespace Instruction

/-- The number of bytes from the operands of a switch to the next multiple of four, by the place of its opcode. -/
def paddingWidth (offset : Nat) : Nat := (4 - (offset + 1) % 4) % 4

/-- Reads an instruction. -/
def read : Read Instruction := do
  let offset ← Reader.position
  let opcode := UInt8.ofNat (← Reader.u1)
  match Shape.ofOpcode? opcode with
  | none => throw (.unknownOpcode opcode offset)
  | some (.reference kind extra) =>
    let index ← Reader.u2
    pure (reference opcode kind index (← Reader.bytes extra))
  | some (.plain width) => pure (plain opcode (← Reader.bytes width))
  | some .wide =>
    let modified := UInt8.ofNat (← Reader.u1)
    pure (wide modified (← Reader.bytes (if modified = iinc then 4 else 2)))
  | some .tableSwitch =>
    let padding ← Reader.bytes (paddingWidth offset)
    let default ← Reader.bytes 4
    let low ← Reader.s4
    let high ← Reader.s4
    if high < low then throw (.emptySwitch offset)
    else pure (tableSwitch padding default low high (← Reader.bytes (4 * (high - low + 1))))
  | some .lookupSwitch =>
    let padding ← Reader.bytes (paddingWidth offset)
    let default ← Reader.bytes 4
    let count ← Reader.s4
    if count < 0 then throw (.negativePairs offset)
    else pure (lookupSwitch padding default count.toNat (← Reader.bytes (8 * count)))

/-- A class-naming instruction: its opcode and its index into the constant pool. -/
structure Ref where
  /-- The opcode. -/
  opcode : UInt8
  /-- What the index points at. -/
  kind : RefKind
  /-- The index into the constant pool. -/
  index : Nat
  deriving DecidableEq

/-- What an instruction names, if it names a class. -/
def ref? : Instruction → Option Ref
  | reference opcode kind index _ => some ⟨opcode, kind, index⟩
  | _ => none

end Instruction

/-- What a walk over the code of a method finds: the instructions up to the end, or up to the first that cannot be
read. -/
structure Walk where
  /-- The instructions that could be read. -/
  instructions : List Instruction
  /-- Why the walk ended early. -/
  fault : Option Fault

namespace Walk

/-- Reads up to a number of instructions, or to the end of the buffer. -/
def steps : Nat → Reader → Walk
  | 0, _ => ⟨[], none⟩
  | n + 1, r =>
    if r.remaining = 0 then ⟨[], none⟩
    else
      match Instruction.read r with
      | .error f => ⟨[], some f⟩
      | .ok (i, r') =>
        let walk := steps n r'
        { walk with instructions := i :: walk.instructions }

/-- Walks over a whole method. Every instruction takes at least one byte, so there are at most as many steps as
bytes. -/
def ofCode (code : List UInt8) : Walk := steps code.length ⟨code.toArray, 0⟩

/-- The class-naming instructions, in order. -/
def refs (w : Walk) : List Instruction.Ref := w.instructions.filterMap Instruction.ref?

end Walk

end Coupling.ClassFile
