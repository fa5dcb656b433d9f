import Coupling.ClassFile.Fault

/-!
# Reading bytes

A reader is a buffer and a position in it, which may lie beyond the end. Every read asks for a number of bytes. It
fails, and the reader stays where it is, if fewer are left or the number is negative; otherwise the reader moves past
them. An access to a reader tells where it stands also after a failure, and a reading ends there. Numbers are stored with
their most significant byte first.
-/

namespace Coupling.ClassFile

/-- A position in a buffer. -/
structure Reader where
  /-- All bytes of the buffer. -/
  buffer : Array UInt8
  /-- How many bytes lie before the position. -/
  offset : Nat := 0

/-- Something done to a reader that stays in use: it leaves the reader somewhere, also if it fails. -/
abbrev Access := EStateM Fault Reader

/-- A computation that reads from a buffer or fails. -/
abbrev Read := StateT Reader (Except Fault)

/-- An access as a step of a reading, which gives the reader up if it fails. -/
def Read.ofAccess {α : Type} (x : Access α) : Read α := fun r =>
  match x r with
  | .ok a r' => .ok (a, r')
  | .error f _ => .error f

namespace Reader

/-- How many bytes are left; negative beyond the end. -/
def remaining (r : Reader) : Int := (r.buffer.size : Int) - r.offset

/-- The bytes that are left. -/
def rest (r : Reader) : List UInt8 := r.buffer.toList.drop r.offset

/-- The number that bytes stand for, the most significant first. -/
def bigEndian (bytes : List UInt8) : Nat := bytes.foldl (fun n b => 256 * n + b.toNat) 0

/-- The signed reading of a number of 32 bits. -/
def signed32 (n : Nat) : Int := if n < 0x80000000 then n else (n : Int) - 0x100000000

/-- Moves past the next `n` bytes, and gives the position where they start. -/
def pass (n : Int) : Access Nat := do
  let r ← get
  if n < 0 ∨ r.remaining < n then throw (.truncated n r.remaining r.offset)
  else
    set { r with offset := r.offset + n.toNat }
    pure r.offset

/-- Takes the next `n` bytes. -/
def take (n : Int) : Access (List UInt8) := do
  let start ← pass n
  let r ← get
  pure (r.buffer.extract start r.offset).toList

/-- The next `n` bytes. -/
def bytes (n : Int) : Read (List UInt8) := .ofAccess (take n)

/-- Moves past the next `n` bytes. -/
def skip (n : Int) : Read Unit := discard (bytes n)

/-- A number of one byte. -/
def u1 : Read Nat := bigEndian <$> bytes 1

/-- A number of two bytes. -/
def u2 : Read Nat := bigEndian <$> bytes 2

/-- A number of four bytes. -/
def u4 : Read Nat := bigEndian <$> bytes 4

/-- A signed number of four bytes. -/
def s4 : Read Int := signed32 <$> u4

/-- Where the reader stands. -/
def position : Read Nat := Reader.offset <$> get

end Reader

/-- Runs an action `n` times and lists what it gives. -/
def repeated {m : Type → Type} [Monad m] {α : Type} (act : m α) : Nat → m (List α)
  | 0 => pure []
  | n + 1 => do
    let a ← act
    let as ← repeated act n
    pure (a :: as)

end Coupling.ClassFile
