import Coupling.ClassFile.Reader

/-!
# The constant pool

A class file names everything through a table of constants. The kinds of constants that dependencies are read from are
texts, classes, fields and methods; all others are stepped over by their fixed width. A constant of eight bytes takes
two slots, and the second of them is unusable, as is slot zero.
-/

namespace Coupling.ClassFile

/-- An entry of the constant pool. -/
inductive Constant where
  /-- A text, with the bytes it is stored as. -/
  | utf8 (raw : List UInt8) (text : Text)
  /-- A class, by the index of its name. -/
  | classRef (nameIndex : Nat)
  /-- A field or a method, by the index of its class, and of its name and type. -/
  | memberRef (kind : MemberKind) (classIndex nameAndTypeIndex : Nat)
  /-- An entry that is never interpreted. -/
  | uninterpreted (tag : UInt8) (payload : List UInt8)
  deriving DecidableEq

namespace Constant

/-- The width of the entries that are never interpreted, by their tag. -/
def uninterpretedWidth? : UInt8 → Option Nat
  | 3 => some 4
  | 4 => some 4
  | 5 => some 8
  | 6 => some 8
  | 8 => some 2
  | 12 => some 4
  | 15 => some 3
  | 16 => some 2
  | 17 => some 4
  | 18 => some 4
  | 19 => some 2
  | 20 => some 2
  | _ => none

/-- The kind of member of a tag. -/
def memberKind? : UInt8 → Option MemberKind
  | 9 => some .fieldref
  | 10 => some .methodref
  | 11 => some .interfaceMethodref
  | _ => none

/-- Entries that take two slots: whole and floating-point numbers of eight bytes. -/
def isWide : Constant → Bool
  | uninterpreted tag _ => tag = 5 || tag = 6
  | _ => false

/-- What a reference that wants something else finds here. -/
def found : Constant → Found
  | utf8 .. => .utf8
  | classRef _ => .classRef
  | memberRef kind .. => .memberRef kind
  | uninterpreted tag _ => .uninterpreted tag

/-- Reads an entry. -/
def read : Read Constant := do
  let offset ← Reader.position
  let tag := UInt8.ofNat (← Reader.u1)
  if tag = 1 then
    let raw ← Reader.bytes (← Reader.u2)
    match ModifiedUtf8.decode raw with
    | .ok text => pure (utf8 raw text)
    | .error f => throw (.badText f)
  else if tag = 7 then
    pure (classRef (← Reader.u2))
  else
    match memberKind? tag, uninterpretedWidth? tag with
    | some kind, _ =>
      let classIndex ← Reader.u2
      pure (memberRef kind classIndex (← Reader.u2))
    | none, some width => pure (uninterpreted tag (← Reader.bytes width))
    | none, none => throw (.unknownTag tag offset)

end Constant

/-- A constant pool: what stands in each slot. -/
structure Pool where
  /-- The slots, from zero. -/
  slots : Array (Option Constant)

namespace Pool

/-- The number of slots, slot zero included. -/
def size (p : Pool) : Nat := p.slots.size

/-- Reads entries until a number of slots is filled. A wide entry in the last slot has no second slot. -/
def readSlots : Nat → Read (List (Option Constant))
  | 0 => pure []
  | 1 => do
    let c ← Constant.read
    pure [some c]
  | left + 2 => do
    let c ← Constant.read
    if c.isWide then
      let slots ← readSlots left
      pure (some c :: none :: slots)
    else
      let slots ← readSlots (left + 1)
      pure (some c :: slots)

/-- Reads a constant pool, from its slot count on. -/
def read : Read Pool := do
  let count ← Reader.u2
  match count with
  | 0 => throw (.emptyPool ((← Reader.position : Nat) - 2))
  | left + 1 =>
    let slots ← readSlots left
    pure ⟨(none :: slots).toArray⟩

/-- The entry at an index. -/
def entry (p : Pool) (index : Int) (wanted : Wanted) : Except Fault Constant :=
  if index ≤ 0 then .error (.unresolved index wanted .outOfRange)
  else
    match p.slots[index.toNat]? with
    | none => .error (.unresolved index wanted .outOfRange)
    | some none => .error (.unresolved index wanted .unusable)
    | some (some c) => .ok c

/-- The text at an index. -/
def utf8 (p : Pool) (index : Int) : Except Fault Text := do
  match ← p.entry index .utf8 with
  | .utf8 _ text => pure text
  | c => throw (.unresolved index .utf8 c.found)

/-- The name of the class at an index. -/
def className (p : Pool) (index : Int) : Except Fault Text := do
  match ← p.entry index .classRef with
  | .classRef nameIndex =>
    match Descriptor.entryName (← p.utf8 nameIndex) with
    | .ok name => pure name
    | .error f => throw (.badDescriptor f)
  | c => throw (.unresolved index .classRef c.found)

/-- The name of the class that owns the field or method at an index. -/
def memberOwner (p : Pool) (index : Int) : Except Fault Text := do
  match ← p.entry index .memberRef with
  | .memberRef _ classIndex _ => p.className classIndex
  | c => throw (.unresolved index .memberRef c.found)

end Pool

end Coupling.ClassFile
