import Coupling.ClassFile.Descriptor
import Coupling.ClassFile.ModifiedUtf8

/-!
# What can be wrong with a class file

A class file is *malformed* when its bytes do not follow the format, and a reference is *unresolved* when an index into
the constant pool does not lead to an entry of the kind needed.
-/

namespace Coupling.ClassFile

/-- The kinds of constant-pool entries that a reference can ask for. -/
inductive Wanted where
  /-- A text. -/
  | utf8
  /-- A class. -/
  | classRef
  /-- A field or a method. -/
  | memberRef
  deriving DecidableEq

/-- The kinds of entries for fields and methods. -/
inductive MemberKind where
  | fieldref
  | methodref
  | interfaceMethodref
  deriving DecidableEq

/-- What a reference found in place of the entry it asked for. -/
inductive Found where
  /-- The index lies outside the pool, or is zero. -/
  | outOfRange
  /-- The second slot of a wide entry. -/
  | unusable
  /-- A text. -/
  | utf8
  /-- A class. -/
  | classRef
  /-- A field or a method. -/
  | memberRef (kind : MemberKind)
  /-- An entry with a tag that is never interpreted. -/
  | uninterpreted (tag : UInt8)
  deriving DecidableEq

/-- What is wrong with a class file. Offsets count from the start of the buffer that was being read. -/
inductive Fault where
  /-- Fewer bytes are left than a read needs. -/
  | truncated (need left : Int) (offset : Nat)
  /-- The file does not begin with the magic number. -/
  | badMagic
  /-- The constant pool has no slots at all. -/
  | emptyPool (offset : Int)
  /-- No constant-pool entry has this tag. -/
  | unknownTag (tag : UInt8) (offset : Nat)
  /-- A text of the pool cannot be read. -/
  | badText (fault : ModifiedUtf8.Fault)
  /-- A descriptor cannot be read. -/
  | badDescriptor (fault : Descriptor.Fault)
  /-- No instruction has this opcode. -/
  | unknownOpcode (opcode : UInt8) (offset : Nat)
  /-- The highest case of a table switch lies below the lowest. -/
  | emptySwitch (offset : Nat)
  /-- The number of pairs of a lookup switch is negative. -/
  | negativePairs (offset : Nat)
  /-- An attribute is longer than what is left of the file. -/
  | attributeOverrun (length : Nat) (left : Int) (offset : Nat)
  /-- An index does not lead to an entry of the kind wanted. -/
  | unresolved (index : Int) (wanted : Wanted) (found : Found)
  deriving DecidableEq

/-- The name of a kind of entry in messages. -/
def Wanted.name : Wanted → String
  | .utf8 => "Utf8"
  | .classRef => "Class"
  | .memberRef => "Fieldref/Methodref"

/-- The name of a kind of member in messages. -/
def MemberKind.name : MemberKind → String
  | .fieldref => "Fieldref"
  | .methodref => "Methodref"
  | .interfaceMethodref => "InterfaceMethodref"

/-- The words for a reference that found something else than it wanted. -/
def Found.message (index : Int) (wanted : Wanted) : Found → String
  | .outOfRange => s!"constant pool index {index} out of range (expected {wanted.name})"
  | .unusable => instead "an unusable slot"
  | .utf8 => instead "Utf8"
  | .classRef => instead "Class"
  | .memberRef kind => instead kind.name
  | .uninterpreted tag => instead s!"tag {tag.toNat}"
where
  /-- What stands at the index, and what should. -/
  instead (actual : String) : String := s!"constant pool index {index} is {actual}, expected {wanted.name}"

namespace Fault

/-- The words for a fault. -/
def message : Fault → String
  | truncated need left offset => s!"truncated: need {need} bytes, {left} left (at byte {offset})"
  | badMagic => "bad magic number (at byte 0)"
  | emptyPool offset => s!"constant_pool_count is zero (at byte {offset})"
  | unknownTag tag offset => s!"unknown constant pool tag {tag.toNat} (at byte {offset})"
  | badText f => "invalid modified UTF-8: " ++ f.message
  | badDescriptor f => f.message
  | unknownOpcode opcode offset => s!"unknown opcode 0x{Hex.digits 2 opcode.toNat} (at byte {offset})"
  | emptySwitch offset => s!"tableswitch high < low (at byte {offset})"
  | negativePairs offset => s!"negative lookupswitch npairs (at byte {offset})"
  | attributeOverrun length left offset => s!"attribute length {length} exceeds remaining {left} (at byte {offset})"
  | unresolved index wanted found => found.message index wanted

/-- The bytes do not follow the format. -/
def isMalformed : Fault → Bool
  | unresolved .. => false
  | _ => true

end Fault

end Coupling.ClassFile
