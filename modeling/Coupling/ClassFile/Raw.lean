import Coupling.ClassFile.Instruction
import Coupling.ClassFile.Pool
import Coupling.Summary

/-!
# The parts of a class file

A class file as it is laid out: every field of the format that can vary is kept, so that the bytes can be told from the
parts. `RawClass.summary` says what the parts mean. References that lead nowhere are left out there: a bad index or a
bad descriptor inside a method costs only the type that it would have named.
-/

namespace Coupling.ClassFile

/-- A named block of bytes. -/
structure RawAttribute where
  /-- The index of the name. -/
  nameIndex : Nat
  /-- The content. -/
  body : List UInt8
  deriving DecidableEq

/-- A field: nothing of it but its place is used. -/
structure RawField where
  /-- The access flags, the name and the descriptor. -/
  header : List UInt8
  /-- The attributes. -/
  attributes : List RawAttribute
  deriving DecidableEq

/-- An entry of a table of local variables. -/
structure RawLocal where
  /-- The part of the code where the variable lives, and the index of its name. -/
  header : List UInt8
  /-- The index of the descriptor. -/
  descriptorIndex : Nat
  /-- The place of the variable in the frame. -/
  slot : List UInt8
  deriving DecidableEq

/-- An attribute of a code attribute. -/
inductive RawCodeAttribute where
  /-- A table of local variables, and the bytes after it. -/
  | locals (nameIndex : Nat) (entries : List RawLocal) (slack : List UInt8)
  /-- Any other attribute. -/
  | other (content : RawAttribute)
  deriving DecidableEq

/-- The content of a code attribute. -/
structure RawCode where
  /-- The size of the stack and the number of local variables. -/
  limits : List UInt8
  /-- The instructions. -/
  instructions : List Instruction
  /-- The table of exception handlers, eight bytes for each. -/
  handlers : List UInt8
  /-- The attributes. -/
  attributes : List RawCodeAttribute
  /-- The bytes after the attributes. -/
  slack : List UInt8
  deriving DecidableEq

/-- An attribute of a method. -/
inductive RawMethodAttribute where
  /-- The classes of the declared exceptions, and the bytes after them. -/
  | exceptions (nameIndex : Nat) (indices : List Nat) (slack : List UInt8)
  /-- The code. -/
  | code (nameIndex : Nat) (content : RawCode)
  /-- Any other attribute. -/
  | other (content : RawAttribute)
  deriving DecidableEq

/-- A method. -/
structure RawMethod where
  /-- The access flags. -/
  flags : List UInt8
  /-- The index of the name. -/
  nameIndex : Nat
  /-- The index of the descriptor. -/
  descriptorIndex : Nat
  /-- The attributes. -/
  attributes : List RawMethodAttribute
  deriving DecidableEq

/-- A class file. -/
structure RawClass where
  /-- The minor version of the format. -/
  minor : Nat
  /-- The major version of the format. -/
  major : Nat
  /-- The constant pool. -/
  pool : Pool
  /-- The access flags. -/
  flags : Nat
  /-- The index of the class itself. -/
  thisIndex : Nat
  /-- The index of the class it extends. -/
  superIndex : List UInt8
  /-- The indices of the interfaces it implements, two bytes for each. -/
  interfaces : List UInt8
  /-- The fields. -/
  fields : List RawField
  /-- The methods. -/
  methods : List RawMethod
  /-- The attributes. -/
  attributes : List RawAttribute

/-! ### What the parts mean -/

/-- The class that an instruction names. -/
def Instruction.Ref.resolve (pool : Pool) (ref : Instruction.Ref) : Except Fault Text :=
  match ref.kind with
  | .member => pool.memberOwner ref.index
  | .type => pool.className ref.index

/-- The type of a local variable. -/
def RawLocal.type? (pool : Pool) (v : RawLocal) : Option Text :=
  match pool.utf8 v.descriptorIndex with
  | .ok descriptor => (Descriptor.fieldType descriptor).toOption.map Descriptor.FieldType.name
  | .error _ => none

/-- The types of the local variables that an attribute lists. -/
def RawCodeAttribute.localTypes (pool : Pool) : RawCodeAttribute → List Text
  | locals _ entries _ => entries.filterMap (RawLocal.type? pool)
  | other _ => []

namespace RawMethodAttribute

/-- The exceptions that an attribute declares. -/
def exceptionTypes (pool : Pool) : RawMethodAttribute → List Text
  | exceptions _ indices _ => indices.filterMap fun i : Nat => (pool.className i).toOption
  | _ => []

/-- The classes that the instructions of an attribute name. -/
def operandTypes (pool : Pool) : RawMethodAttribute → List Text
  | code _ content => content.instructions.filterMap fun i => i.ref?.bind fun ref => (ref.resolve pool).toOption
  | _ => []

/-- The types of the local variables of an attribute. -/
def localTypes (pool : Pool) : RawMethodAttribute → List Text
  | code _ content => content.attributes.flatMap (RawCodeAttribute.localTypes pool)
  | _ => []

end RawMethodAttribute

namespace RawMethod

/-- The name of a method whose own name cannot be told. -/
def unnamed : Text := "?"

/-- The name of a method. -/
def name (pool : Pool) (m : RawMethod) : Text :=
  match pool.utf8 m.nameIndex with
  | .ok [] => unnamed
  | .ok name => name
  | .error _ => unnamed

/-- The descriptor of a method, empty if it cannot be told. -/
def descriptor (pool : Pool) (m : RawMethod) : Text := (pool.utf8 m.descriptorIndex).toOption.getD []

/-- What is kept of a method. Without a usable descriptor it has no parameters and no result. -/
def summary (pool : Pool) (m : RawMethod) : MethodSummary :=
  let type := (Descriptor.methodType (m.descriptor pool)).toOption.getD ⟨[], none⟩
  { name := m.name pool
    descriptor := m.descriptor pool
    result := type.resultName
    parameters := type.parameters.map Descriptor.FieldType.name
    exceptions := SortedSet.ofList (m.attributes.flatMap (RawMethodAttribute.exceptionTypes pool))
    operands := m.attributes.flatMap (RawMethodAttribute.operandTypes pool)
    locals := m.attributes.flatMap (RawMethodAttribute.localTypes pool) }

end RawMethod

/-- What is kept of a class with a given name. -/
def RawClass.summary (c : RawClass) (name : Text) : ClassSummary :=
  { name, flags := c.flags, methods := c.methods.map (RawMethod.summary c.pool), major := c.major, minor := c.minor }

end Coupling.ClassFile
