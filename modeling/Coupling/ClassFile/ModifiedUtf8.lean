import Coupling.Text.Hex
import Coupling.Text.Utf8

/-!
# Modified UTF-8

Class files store texts in a variant of UTF-8: the code point zero takes the two bytes `C0 80`, and a character beyond
the first plane takes two encoded surrogates. Reading also accepts a plain zero byte and the four-byte form. A text is
read unit by unit; afterwards each high surrogate that a low one follows is joined with it, and every other surrogate
stays as it is.

A fault names the first unit that cannot be read. Its position counts bytes after every `C0 80` became one zero byte.
-/

namespace Coupling.ModifiedUtf8

open Utf8 (Reason IsContinuation width)

/-- The first unit that cannot be read. -/
structure Fault where
  /-- Where the unit begins. -/
  position : Nat
  /-- Its first byte. -/
  lead : UInt8
  /-- How many bytes were fit to begin a unit. -/
  count : Nat
  /-- What is wrong with it. -/
  reason : Reason
  deriving DecidableEq

/-- One byte is shown, several are given by their positions. -/
def Fault.message (f : Fault) : String :=
  let place :=
    if f.count ≤ 1 then s!"byte 0x{Hex.digits 2 f.lead.toNat} in position {f.position}"
    else s!"bytes in position {f.position}-{f.position + f.count - 1}"
  "'utf-8' codec can't decode " ++ place ++ ": " ++ f.reason.message

/-- Every `C0 80` becomes a zero byte. -/
def plainZero : List UInt8 → List UInt8
  | [] => []
  | [b] => [b]
  | a :: b :: rest => if a = 0xC0 ∧ b = 0x80 then 0 :: plainZero rest else a :: plainZero (b :: rest)

/-- An encoded surrogate, without its lead byte `ED`. -/
def surrogate? : List UInt8 → Option (CodePoint × List UInt8)
  | b :: c :: rest =>
    if 0xA0 ≤ b ∧ b ≤ 0xBF ∧ IsContinuation c then
      some (CodePoint.ofNat (0xD000 + 64 * (b.toNat % 64) + c.toNat % 64), rest)
    else none
  | _ => none

/-- Reads the rest of a unit after its lead byte: a surrogate, or a unit as in UTF-8. On failure it tells how many bytes of
the unit were fit. -/
def afterLead (lead : UInt8) (rest : List UInt8) : Except (Nat × Reason) (CodePoint × List UInt8) :=
  match if lead = 0xED then surrogate? rest else none with
  | some r => .ok r
  | none => Utf8.afterLead CodePoint.ofNat lead rest

theorem surrogate?_length {s r : List UInt8} {c : CodePoint} (h : surrogate? s = some (c, r)) :
    r.length ≤ s.length := by
  unfold surrogate? at h
  split at h
  · split at h
    · simp only [Option.some.injEq, Prod.mk.injEq] at h
      simp only [List.length_cons, ← h.2]
      omega
    · cases h
  · cases h

theorem afterLead_length {lead : UInt8} {s r : List UInt8} {c : CodePoint} (h : afterLead lead s = .ok (c, r)) :
    r.length ≤ s.length := by
  unfold afterLead at h
  split at h
  · next heq =>
    simp only [Except.ok.injEq] at h
    subst h
    split at heq
    · exact surrogate?_length heq
    · cases heq
  · exact Utf8.afterLead_length h

/-- Reads units up to the end, counting positions from a given one. -/
def units (position : Nat) : List UInt8 → Except Fault Text
  | [] => .ok []
  | lead :: rest =>
    match h : afterLead lead rest with
    | .error (count, reason) => .error ⟨position, lead, count, reason⟩
    | .ok (c, rest') =>
      have := afterLead_length h
      (units (position + width lead) rest').map (c :: ·)
termination_by s => s.length

/-- The character of a surrogate pair. -/
def pair (high low : CodePoint) : CodePoint :=
  CodePoint.ofNat (0x10000 + (high.val - 0xD800) * 0x400 + (low.val - 0xDC00))

/-- Joins each high surrogate with the low one right after it. -/
def joinPairs : Text → Text
  | [] => []
  | [c] => [c]
  | c :: d :: t => if c.IsHigh ∧ d.IsLow then pair c d :: joinPairs t else c :: joinPairs (d :: t)

/-- Reads a whole text. -/
def decode (raw : List UInt8) : Except Fault Text := (units 0 (plainZero raw)).map joinPairs

end Coupling.ModifiedUtf8
