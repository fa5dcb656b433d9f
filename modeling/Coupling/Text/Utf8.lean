import Coupling.Text.CodePoint

/-!
# UTF-8

Files hold text as UTF-8. Configuration and build files must be well formed; source files are read whatever they hold,
with a replacement character for each run of bytes that begins a character and does not complete it. Reports are written
in UTF-8 too, unless they hold half of a surrogate pair, which is no character.
-/

namespace Coupling.Utf8

/-- Why a character cannot be read. -/
inductive Reason where
  /-- No character begins with this byte. -/
  | invalidStart
  /-- The next byte cannot stand at its place in the character. -/
  | invalidContinuation
  /-- The bytes end inside the character. -/
  | unexpectedEnd
  deriving DecidableEq

/-- The words for a reason. -/
def Reason.message : Reason → String
  | .invalidStart => "invalid start byte"
  | .invalidContinuation => "invalid continuation byte"
  | .unexpectedEnd => "unexpected end of data"

/-- A byte that carries six more bits. -/
def IsContinuation (b : UInt8) : Prop := 0x80 ≤ b ∧ b ≤ 0xBF

instance (b : UInt8) : Decidable (IsContinuation b) := inferInstanceAs (Decidable (_ ∧ _))

/-- How many bytes follow a lead byte, and between which bounds the second byte lies. -/
def tail? (lead : UInt8) : Option (Nat × UInt8 × UInt8) :=
  if 0xC2 ≤ lead ∧ lead ≤ 0xDF then some (1, 0x80, 0xBF)
  else if lead = 0xE0 then some (2, 0xA0, 0xBF)
  else if lead = 0xED then some (2, 0x80, 0x9F)
  else if 0xE1 ≤ lead ∧ lead ≤ 0xEF then some (2, 0x80, 0xBF)
  else if lead = 0xF0 then some (3, 0x90, 0xBF)
  else if 0xF1 ≤ lead ∧ lead ≤ 0xF3 then some (3, 0x80, 0xBF)
  else if lead = 0xF4 then some (3, 0x80, 0x8F)
  else none

/-- The number of bytes of a character, by its lead byte. -/
def width (lead : UInt8) : Nat := (tail? lead).elim 1 (·.1 + 1)

/-- The bits of a lead byte that belong to the code point, when `n` bytes follow. -/
def leadBits (lead : UInt8) (n : Nat) : Nat := lead.toNat % Nat.pow 2 (6 - n)

/-- Reads `n` continuation bytes, the first of them between bounds. On failure it tells how many were read. -/
def continuation : (n : Nat) → (low high : UInt8) → (bits : Nat) → List UInt8 →
    Except (Nat × Reason) (Nat × List UInt8)
  | 0, _, _, bits, rest => .ok (bits, rest)
  | _ + 1, _, _, _, [] => .error (0, .unexpectedEnd)
  | n + 1, low, high, bits, b :: rest =>
    if low ≤ b ∧ b ≤ high then
      match continuation n 0x80 0xBF (64 * bits + b.toNat % 64) rest with
      | .ok r => .ok r
      | .error (read, reason) => .error (read + 1, reason)
    else .error (0, .invalidContinuation)

theorem continuation_length {n : Nat} {low high : UInt8} {bits v : Nat} {s r : List UInt8}
    (h : continuation n low high bits s = .ok (v, r)) : r.length ≤ s.length := by
  induction n generalizing low high bits s with
  | zero =>
    simp only [continuation, Except.ok.injEq, Prod.mk.injEq] at h
    simp [h.2]
  | succ n ih =>
    cases s with
    | nil => simp [continuation] at h
    | cons b s =>
      rw [continuation] at h
      split at h
      · split at h
        · next heq =>
          have := ih (heq.trans h)
          simp only [List.length_cons]
          omega
        · cases h
      · cases h

/-- Reads the rest of a character after its lead byte, and makes something of its number. On failure it tells how many
bytes of it were fit. -/
def afterLead {α : Type} (ofNumber : Nat → α) (lead : UInt8) (rest : List UInt8) :
    Except (Nat × Reason) (α × List UInt8) :=
  if lead < 0x80 then .ok (ofNumber lead.toNat, rest)
  else
    match tail? lead with
    | none => .error (1, .invalidStart)
    | some (n, low, high) =>
      match continuation n low high (leadBits lead n) rest with
      | .ok (bits, rest) => .ok (ofNumber bits, rest)
      | .error (read, reason) => .error (read + 1, reason)

theorem afterLead_length {α : Type} {ofNumber : Nat → α} {lead : UInt8} {s r : List UInt8} {a : α}
    (h : afterLead ofNumber lead s = .ok (a, r)) : r.length ≤ s.length := by
  unfold afterLead at h
  split at h
  · simp only [Except.ok.injEq, Prod.mk.injEq] at h
    simp [h.2]
  · split at h
    · cases h
    · split at h
      · next heq =>
        simp only [Except.ok.injEq, Prod.mk.injEq] at h
        rw [← h.2]
        exact continuation_length heq
      · cases h

/-- The characters of well-formed bytes. -/
def decode? : List UInt8 → Option (List Char)
  | [] => some []
  | lead :: rest =>
    match h : afterLead Char.ofNat lead rest with
    | .error _ => none
    | .ok (c, rest') =>
      have := afterLead_length h
      (decode? rest').map (c :: ·)
termination_by s => s.length

/-- The characters of any bytes. Where a character cannot be read, its bytes up to the fault are replaced. -/
def decodeLossy : List UInt8 → List Char
  | [] => []
  | lead :: rest =>
    match h : afterLead Char.ofNat lead rest with
    | .error (count, _) => '�' :: decodeLossy (rest.drop (count - 1))
    | .ok (c, rest') =>
      have := afterLead_length h
      c :: decodeLossy rest'
termination_by s => s.length
decreasing_by all_goals simp only [List.length_cons, List.length_drop]; omega

/-- The bytes of a code point. -/
def encodePoint (c : CodePoint) : List UInt8 :=
  let more (shift : Nat) : UInt8 := UInt8.ofNat (0x80 + c.val / shift % 64)
  if c.val < 0x80 then [UInt8.ofNat c.val]
  else if c.val < 0x800 then [UInt8.ofNat (0xC0 + c.val / 64), more 1]
  else if c.val < 0x10000 then [UInt8.ofNat (0xE0 + c.val / 4096), more 64, more 1]
  else [UInt8.ofNat (0xF0 + c.val / 262144), more 4096, more 64, more 1]

/-- The bytes of a text. -/
def encode (t : Text) : List UInt8 := t.flatMap encodePoint

/-- The bytes of a text that is written to a file; there are none if it holds half of a surrogate pair. -/
def encode? (t : Text) : Option (List UInt8) := if t.all fun c => c.toChar?.isSome then some (encode t) else none

/-- Every kind of line break becomes a line feed. -/
def plainBreaks : List Char → List Char
  | [] => []
  | '\r' :: '\n' :: rest => '\n' :: plainBreaks rest
  | '\r' :: rest => '\n' :: plainBreaks rest
  | c :: rest => c :: plainBreaks rest

end Coupling.Utf8
