import Coupling.Proofs.Lookup
import Coupling.Proofs.Spelling
import Coupling.Proofs.Tables

/-!
# How class files are laid out

For each part of a class file, the bytes that it is stored as, and which parts can be stored at all: every number has to
fit its place, every block of bytes its length, and every text of the constant pool has to be spelled. An attribute is
laid out by its name, so a part that is kept as plain bytes must not bear the name of a part with a layout of its own.
-/

namespace Coupling.ClassFile

/-! ### The constant pool -/

/-- The tag of a field or a method. -/
def MemberKind.tag : MemberKind → UInt8
  | .fieldref => 9
  | .methodref => 10
  | .interfaceMethodref => 11

namespace Constant

/-- The bytes of a constant. -/
def encode : Constant → List UInt8
  | utf8 raw _ => 1 :: (numeral 2 raw.length ++ raw)
  | classRef nameIndex => 7 :: numeral 2 nameIndex
  | memberRef kind classIndex nameAndTypeIndex => kind.tag :: (numeral 2 classIndex ++ numeral 2 nameAndTypeIndex)
  | uninterpreted tag payload => tag :: payload

/-- The constants that can be stored. -/
def WellFormed : Constant → Prop
  | utf8 raw text => raw.length < 2 ^ 16 ∧ ModifiedUtf8.Spells raw text
  | classRef nameIndex => nameIndex < 2 ^ 16
  | memberRef _ classIndex nameAndTypeIndex => classIndex < 2 ^ 16 ∧ nameAndTypeIndex < 2 ^ 16
  | uninterpreted tag payload => uninterpretedWidth? tag = some payload.length

end Constant

namespace Pool

/-- The bytes of what stands in a slot. -/
def encodeSlot (c? : Option Constant) : List UInt8 := c?.elim [] Constant.encode

/-- Slots that constants fill one after the other. A wide constant takes two, unless only one is left. -/
inductive Filled : List (Option Constant) → Prop where
  /-- No slot is left. -/
  | nil : Filled []
  /-- A constant that takes one slot. -/
  | narrow {c : Constant} {slots : List (Option Constant)} :
    c.WellFormed → c.isWide = false → Filled slots → Filled (some c :: slots)
  /-- A constant that takes two slots. -/
  | wide {c : Constant} {slots : List (Option Constant)} :
    c.WellFormed → c.isWide = true → Filled slots → Filled (some c :: none :: slots)
  /-- A wide constant in the last slot. -/
  | last {c : Constant} : c.WellFormed → c.isWide = true → Filled [some c]

/-- The bytes of a constant pool, from the number of its slots on. -/
def encode (p : Pool) : List UInt8 := numeral 2 p.size ++ p.slots.toList.flatMap encodeSlot

/-- The constant pools that can be stored. Nothing stands in slot zero. -/
structure WellFormed (p : Pool) : Prop where
  size : p.size < 2 ^ 16
  slots : ∃ slots, p.slots.toList = none :: slots ∧ Filled slots

end Pool

/-! ### Instructions -/

namespace Instruction

/-- The bytes of an instruction. -/
def encode : Instruction → List UInt8
  | reference opcode _ index extra => opcode :: (numeral 2 index ++ extra)
  | plain opcode operands => opcode :: operands
  | wide modified operands => 0xC4 :: modified :: operands
  | tableSwitch padding default low high offsets =>
    0xAA :: (padding ++ (default ++ (signedNumeral low ++ (signedNumeral high ++ offsets))))
  | lookupSwitch padding default count pairs => 0xAB :: (padding ++ (default ++ (signedNumeral count ++ pairs)))

/-- The instructions that can stand at an offset. -/
def WellFormed (offset : Nat) : Instruction → Prop
  | reference opcode kind index extra =>
    Shape.ofOpcode? opcode = some (.reference kind extra.length) ∧ index < 2 ^ 16
  | plain opcode operands => Shape.ofOpcode? opcode = some (.plain operands.length)
  | wide modified operands => operands.length = if modified = iinc then 4 else 2
  | tableSwitch padding default low high offsets =>
    padding.length = paddingWidth offset ∧ default.length = 4 ∧ IsSigned32 low ∧ IsSigned32 high ∧ low ≤ high ∧
      (offsets.length : Int) = 4 * (high - low + 1)
  | lookupSwitch padding default count pairs =>
    padding.length = paddingWidth offset ∧ default.length = 4 ∧ count < 2 ^ 31 ∧ pairs.length = 8 * count

/-- Instructions that can stand one after the other from an offset on. -/
def Laid : (offset : Nat) → List Instruction → Prop
  | _, [] => True
  | offset, i :: rest => i.WellFormed offset ∧ Laid (offset + i.encode.length) rest

end Instruction

/-! ### Fields and attributes -/

/-- The bytes of an attribute that is kept as bytes. -/
def RawAttribute.encode (a : RawAttribute) : List UInt8 := numeral 2 a.nameIndex ++ block a.body

/-- The attributes that can be stored. -/
structure RawAttribute.WellFormed (a : RawAttribute) : Prop where
  nameIndex : a.nameIndex < 2 ^ 16
  body : IsBlock a.body

/-- The bytes of a field. -/
def RawField.encode (f : RawField) : List UInt8 := f.header ++ table RawAttribute.encode f.attributes

/-- The fields that can be stored. -/
structure RawField.WellFormed (f : RawField) : Prop where
  header : f.header.length = 6
  attributes : IsTable RawAttribute.WellFormed f.attributes

/-! ### Code -/

/-- The bytes of an entry of a table of local variables. -/
def RawLocal.encode (v : RawLocal) : List UInt8 := v.header ++ (numeral 2 v.descriptorIndex ++ v.slot)

/-- The entries that can be stored. -/
structure RawLocal.WellFormed (v : RawLocal) : Prop where
  header : v.header.length = 6
  descriptorIndex : v.descriptorIndex < 2 ^ 16
  slot : v.slot.length = 2

/-- The name of the attribute that lists local variables. -/
def localsName : Text := "LocalVariableTable"

namespace RawCodeAttribute

/-- The index of the name. -/
def nameIndex : RawCodeAttribute → Nat
  | locals nameIndex .. => nameIndex
  | other content => content.nameIndex

/-- The content as bytes. -/
def body : RawCodeAttribute → List UInt8
  | locals _ entries slack => table RawLocal.encode entries ++ slack
  | other content => content.body

/-- The bytes of an attribute of a code attribute. -/
def encode (a : RawCodeAttribute) : List UInt8 := numeral 2 a.nameIndex ++ block a.body

/-- Whether the kind of an attribute is that of its name, and its content has its layout. -/
def Fits (pool : Pool) : RawCodeAttribute → Prop
  | locals nameIndex entries _ => pool.HasText nameIndex localsName ∧ IsTable RawLocal.WellFormed entries
  | other content => ¬ pool.HasText content.nameIndex localsName

/-- The attributes that can be stored in a class file with a given constant pool. -/
structure WellFormed (pool : Pool) (a : RawCodeAttribute) : Prop where
  nameIndex : a.nameIndex < 2 ^ 16
  body : IsBlock a.body
  fits : a.Fits pool

end RawCodeAttribute

namespace RawCode

/-- The instructions as bytes. -/
def bytecode (c : RawCode) : List UInt8 := c.instructions.flatMap Instruction.encode

/-- The bytes of the content of a code attribute, up to its slack. -/
def content (c : RawCode) : List UInt8 :=
  c.limits ++ (block c.bytecode ++ (entries 8 c.handlers ++ table RawCodeAttribute.encode c.attributes))

/-- The code that can be stored in a class file with a given constant pool. -/
structure WellFormed (pool : Pool) (c : RawCode) : Prop where
  limits : c.limits.length = 4
  instructions : Instruction.Laid 0 c.instructions
  bytecode : IsBlock c.bytecode
  handlers : IsEntries 8 c.handlers
  attributes : IsTable (RawCodeAttribute.WellFormed pool) c.attributes

end RawCode

/-! ### Methods -/

/-- The name of the attribute that declares exceptions. -/
def exceptionsName : Text := "Exceptions"

/-- The name of the attribute that holds the code. -/
def codeName : Text := "Code"

namespace RawMethodAttribute

/-- The index of the name. -/
def nameIndex : RawMethodAttribute → Nat
  | exceptions nameIndex .. => nameIndex
  | code nameIndex _ => nameIndex
  | other content => content.nameIndex

/-- The content as bytes. -/
def body : RawMethodAttribute → List UInt8
  | exceptions _ indices slack => table (numeral 2) indices ++ slack
  | code _ content => content.content ++ content.slack
  | other content => content.body

/-- The bytes of an attribute of a method. -/
def encode (a : RawMethodAttribute) : List UInt8 := numeral 2 a.nameIndex ++ block a.body

/-- Whether the kind of an attribute is that of its name, and its content has its layout. -/
def Fits (pool : Pool) : RawMethodAttribute → Prop
  | exceptions nameIndex indices _ => pool.HasText nameIndex exceptionsName ∧ IsTable (· < 2 ^ 16) indices
  | code nameIndex content => pool.HasText nameIndex codeName ∧ content.WellFormed pool
  | other content => ¬ pool.HasText content.nameIndex exceptionsName ∧ ¬ pool.HasText content.nameIndex codeName

/-- The attributes that can be stored in a class file with a given constant pool. -/
structure WellFormed (pool : Pool) (a : RawMethodAttribute) : Prop where
  nameIndex : a.nameIndex < 2 ^ 16
  body : IsBlock a.body
  fits : a.Fits pool

end RawMethodAttribute

/-- The bytes of a method. -/
def RawMethod.encode (m : RawMethod) : List UInt8 :=
  m.flags ++ (numeral 2 m.nameIndex ++ (numeral 2 m.descriptorIndex ++ table RawMethodAttribute.encode m.attributes))

/-- The methods that can be stored in a class file with a given constant pool. -/
structure RawMethod.WellFormed (pool : Pool) (m : RawMethod) : Prop where
  flags : m.flags.length = 2
  nameIndex : m.nameIndex < 2 ^ 16
  descriptorIndex : m.descriptorIndex < 2 ^ 16
  attributes : IsTable (RawMethodAttribute.WellFormed pool) m.attributes

/-! ### Classes -/

/-- The bytes of a class file. -/
def RawClass.encode (c : RawClass) : List UInt8 :=
  numeral 4 magic ++ (numeral 2 c.minor ++ (numeral 2 c.major ++ (c.pool.encode ++ (numeral 2 c.flags ++
    (numeral 2 c.thisIndex ++ (c.superIndex ++ (entries 2 c.interfaces ++ (table RawField.encode c.fields ++
      (table RawMethod.encode c.methods ++ table RawAttribute.encode c.attributes)))))))))

/-- The class files that can be stored. -/
structure RawClass.WellFormed (c : RawClass) : Prop where
  minor : c.minor < 2 ^ 16
  major : c.major < 2 ^ 16
  pool : c.pool.WellFormed
  flags : c.flags < 2 ^ 16
  thisIndex : c.thisIndex < 2 ^ 16
  superIndex : c.superIndex.length = 2
  interfaces : IsEntries 2 c.interfaces
  fields : IsTable RawField.WellFormed c.fields
  methods : IsTable (RawMethod.WellFormed c.pool) c.methods
  attributes : IsTable RawAttribute.WellFormed c.attributes

end Coupling.ClassFile
