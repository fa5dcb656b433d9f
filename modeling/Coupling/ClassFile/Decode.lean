import Coupling.ClassFile.Note
import Coupling.ClassFile.Raw

/-!
# Decoding a class file

The parts of a class file are read one after the other. An attribute of a method is read in a buffer of its own, so
that nothing inside it can run past its declared length, and the offsets in its faults count from its start. A fault of
the format ends the decoding; a reference that leads nowhere is noted and left out, unless it is the name of the class
itself.
-/

namespace Coupling.ClassFile

/-- Where a decoding stands. -/
structure Progress where
  /-- What is left to read. -/
  reader : Reader
  /-- The remarks so far, the latest first. -/
  notes : List Note

/-- A computation that reads parts of a class file and notes what it leaves out. -/
abbrev Decoder := EStateM Fault Progress

namespace Decoder

/-- A reading that notes nothing. -/
def ofRead {α : Type} (read : Read α) : Decoder α := fun s =>
  match read s.reader with
  | .ok (a, reader) => .ok a { s with reader }
  | .error f => .error f s

instance : MonadLift Read Decoder := ⟨ofRead⟩

/-- Adds a remark. -/
def note (n : Note) : Decoder Unit := modify fun s => { s with notes := n :: s.notes }

/-- The text that a reference leads to; if there is none, that is noted. -/
def resolve (place : Text) (role : Role) (found : Except Fault Text) : Decoder (Option Text) :=
  match found with
  | .ok t => pure (some t)
  | .error f => do
    note (.unresolved place role f)
    pure none

/-- Decodes within a buffer of its own, and gives also the bytes that were not read. -/
def within {α : Type} (body : List UInt8) (decode : Decoder α) : Decoder (α × List UInt8) := fun s =>
  match decode { s with reader := ⟨body.toArray, 0⟩ } with
  | .ok a inner => .ok (a, inner.reader.rest) { s with notes := inner.notes }
  | .error f inner => .error f { s with notes := inner.notes }

end Decoder

open Decoder

/-- Attributes of which only the place is used. -/
def RawAttribute.read : Read RawAttribute := do
  let nameIndex ← Reader.u2
  pure ⟨nameIndex, ← Reader.bytes (← Reader.u4)⟩

/-- A list of such attributes, after its length. -/
def RawAttribute.readAll : Read (List RawAttribute) := do repeated RawAttribute.read (← Reader.u2)

/-- Reads a field. -/
def RawField.read : Read RawField := do
  let header ← Reader.bytes 6
  pure ⟨header, ← RawAttribute.readAll⟩

/-- Reads an entry of a table of local variables. -/
def RawLocal.decode (pool : Pool) (place : Text) : Decoder RawLocal := do
  let range ← Reader.bytes 4
  let nameIndex ← Reader.bytes 2
  let descriptorIndex ← Reader.u2
  let descriptor? ← resolve place .localVariable (pool.utf8 descriptorIndex)
  let slot ← Reader.bytes 2
  if let some descriptor := descriptor? then
    if let .error f := Descriptor.fieldType descriptor then
      note (.badLocal place descriptor f)
  pure ⟨range ++ nameIndex, descriptorIndex, slot⟩

/-- Reads an attribute of a code attribute. -/
def RawCodeAttribute.decode (pool : Pool) (place : Text) : Decoder RawCodeAttribute := do
  let nameIndex ← Reader.u2
  let name? ← resolve place .attributeName (pool.utf8 nameIndex)
  let body ← Reader.bytes (← Reader.u4)
  if name? = some "LocalVariableTable" then
    let (entries, slack) ← within body do repeated (RawLocal.decode pool place) (← Reader.u2)
    pure (.locals nameIndex entries slack)
  else pure (.other ⟨nameIndex, body⟩)

/-- Reads the content of a code attribute, up to its slack. -/
def RawCode.decode (pool : Pool) (place : Text) : Decoder RawCode := do
  let limits ← Reader.bytes 4
  let walk := Walk.ofCode (← Reader.bytes (← Reader.u4))
  for ref in walk.refs do
    discard <| resolve place .operand (ref.resolve pool)
  if let some f := walk.fault then throw f
  let handlers ← Reader.bytes (8 * (← Reader.u2))
  let attributes ← repeated (RawCodeAttribute.decode pool place) (← Reader.u2)
  pure ⟨limits, walk.instructions, handlers, attributes, []⟩

/-- Reads the indices of the declared exceptions. -/
def decodeExceptions (pool : Pool) (place : Text) : Decoder (List Nat) := do
  let exception : Decoder Nat := do
    let index ← Reader.u2
    discard <| resolve place .exception (pool.className index)
    pure index
  repeated exception (← Reader.u2)

/-- Reads an attribute of a method. -/
def RawMethodAttribute.decode (pool : Pool) (place : Text) : Decoder RawMethodAttribute := do
  let nameIndex ← Reader.u2
  let name? ← resolve place .attributeName (pool.utf8 nameIndex)
  let length ← Reader.u4
  let reader := (← get).reader
  if reader.remaining < length then throw (.attributeOverrun length reader.remaining reader.offset)
  let body ← Reader.bytes length
  if name? = some "Exceptions" then
    let (indices, slack) ← within body (decodeExceptions pool place)
    pure (.exceptions nameIndex indices slack)
  else if name? = some "Code" then
    let (content, slack) ← within body (RawCode.decode pool place)
    pure (.code nameIndex { content with slack })
  else pure (.other ⟨nameIndex, body⟩)

/-- Reads a method of the class `owner`. -/
def RawMethod.decode (pool : Pool) (owner : Text) : Decoder RawMethod := do
  let flags ← Reader.bytes 2
  let nameIndex ← Reader.u2
  let name? ← resolve owner .methodName (pool.utf8 nameIndex)
  let descriptorIndex ← Reader.u2
  let descriptor? ← resolve owner .methodDescriptor (pool.utf8 descriptorIndex)
  let name := match name? with
    | none | some [] => unnamed
    | some name => name
  let attributes ← repeated (RawMethodAttribute.decode pool (owner ++ "." ++ name)) (← Reader.u2)
  if let some descriptor := descriptor? then
    if descriptor ≠ [] then
      if let .error f := Descriptor.methodType descriptor then
        note (.badDescriptor owner name f)
  pure ⟨flags, nameIndex, descriptorIndex, attributes⟩

/-- The number at the start of every class file. -/
def magic : Nat := 0xCAFEBABE

/-- Reads a class file, and gives the name of the class too. The name is looked up as soon as its index is known, before
what follows it is read. -/
def RawClass.decode : Decoder (RawClass × Text) := do
  if (← get).reader.remaining < 4 then throw .badMagic
  if (← Reader.u4) ≠ magic then throw .badMagic
  let minor ← Reader.u2
  let major ← Reader.u2
  let pool ← Pool.read
  let flags ← Reader.u2
  let thisIndex ← Reader.u2
  let superIndex ← Reader.bytes 2
  let name ← match pool.className thisIndex with
    | .ok name => pure name
    | .error f => throw f
  let interfaces ← Reader.bytes (2 * (← Reader.u2))
  let fields ← repeated (RawField.read : Decoder RawField) (← Reader.u2)
  let methods ← repeated (RawMethod.decode pool name) (← Reader.u2)
  let attributes ← RawAttribute.readAll
  note (.decoded name major minor methods.length)
  pure (⟨minor, major, pool, flags, thisIndex, superIndex, interfaces, fields, methods, attributes⟩, name)

/-- What decoding a class file gives. -/
structure Decoded where
  /-- What is kept of the class, or what is wrong with the file. -/
  outcome : Except Fault ClassSummary
  /-- The remarks, in order. -/
  notes : List Note

/-- Decodes the bytes of a class file. -/
def decode (bytes : List UInt8) : Decoded :=
  match RawClass.decode ⟨⟨bytes.toArray, 0⟩, []⟩ with
  | .ok (c, name) s => ⟨.ok (c.summary name), s.notes.reverse⟩
  | .error f s => ⟨.error f, s.notes.reverse⟩

end Coupling.ClassFile
