import Coupling.ClassFile.Reader

/-!
# Calls on a reader

A reader that stays in use answers one call after the other, and goes on after a call that failed. Every call asks for a
number of bytes and answers with a number, with the bytes themselves, or with nothing.
-/

namespace Coupling.ClassFile.Reader

/-- What can be asked of a reader. -/
inductive Call where
  /-- A number of one byte. -/
  | u1
  /-- A number of two bytes. -/
  | u2
  /-- A number of four bytes. -/
  | u4
  /-- A signed number of four bytes. -/
  | s4
  /-- The next `n` bytes. -/
  | read (n : Int)
  /-- To move past the next `n` bytes. -/
  | skip (n : Int)
  deriving DecidableEq

/-- What a reader answers. -/
inductive Answer where
  | number (n : Int)
  | bytes (bytes : List UInt8)
  | nothing
  deriving DecidableEq

namespace Call

/-- How many bytes a call asks for. -/
def width : Call → Int
  | u1 => 1
  | u2 => 2
  | u4 | s4 => 4
  | read n | skip n => n

/-- The answer that the bytes stand for. -/
def answer (bytes : List UInt8) : Call → Answer
  | u1 | u2 | u4 => .number (bigEndian bytes)
  | s4 => .number (signed32 (bigEndian bytes))
  | read _ => .bytes bytes
  | skip _ => .nothing

/-- Carries a call out. -/
def perform (c : Call) : Access Answer := do
  let bytes ← take c.width
  pure (c.answer bytes)

end Call

/-- A call that was made on a reader, and what came of it. -/
structure Event where
  /-- The call. -/
  call : Call
  /-- The reader before the call. -/
  before : Reader
  /-- The answer, or the reason that there is none. -/
  outcome : Except Fault Answer
  /-- The reader after the call. -/
  after : Reader

namespace Event

/-- There is an answer. -/
def succeeded (e : Event) : Bool := e.outcome.isOk

/-- The bytes between the positions before and after the call. -/
def slice (e : Event) : List UInt8 := (e.before.buffer.extract e.before.offset e.after.offset).toList

end Event

/-- Makes a call on a reader. -/
def serve (r : Reader) (c : Call) : Event :=
  match c.perform r with
  | .ok a r' => ⟨c, r, .ok a, r'⟩
  | .error f r' => ⟨c, r, .error f, r'⟩

/-- Makes calls on a reader, each on the reader that the last one left. -/
def history (r : Reader) : List Call → List Event
  | [] => []
  | c :: calls =>
    let e := r.serve c
    e :: e.after.history calls

/-- The reader after calls. -/
def final (r : Reader) (calls : List Call) : Reader := calls.foldl (fun r c => (r.serve c).after) r

end Coupling.ClassFile.Reader
