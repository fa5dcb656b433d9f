/-!
# Binary floating-point numbers of 64 bits

The finite numbers of the format are rationals, and every operation of the format is the exact operation on rationals
followed by `Binary64.round`, which gives the nearest number of the format and, of two that are equally near, the one
with an even significand. The range of the format is not built into `round`: a result of size `limit` or more is an
overflow, which only `roundPlaces` can meet.
-/

namespace Coupling.Binary64

/-- Two to an integer power. -/
def pow2 (e : Int) : Rat := if 0 ≤ e then (Nat.pow 2 e.toNat : Rat) else 1 / (Nat.pow 2 (-e).toNat : Rat)

/-- The nearest integer, and of two the even one. -/
def nearestEven (x : Rat) : Int :=
  let below := x.floor
  let part := x - below
  if part < 1 / 2 then below
  else if 1 / 2 < part then below + 1
  else if below % 2 = 0 then below
  else below + 1

/-- The exponent of the largest power of two that is not above a positive number. -/
def exponent (x : Rat) : Int :=
  let guess := (x.num.natAbs.log2 : Int) - x.den.log2
  if pow2 guess ≤ x then guess else guess - 1

/-- The distance between neighbouring numbers of the format around a positive number, as a power of two. -/
def quantum (x : Rat) : Int := max (exponent x - 52) (-1074)

/-- The nearest number of the format; halfway cases go to an even significand. -/
def round (x : Rat) : Rat :=
  if x = 0 then 0
  else
    let q := quantum x.abs
    nearestEven (x / pow2 q) * pow2 q

/-- The first size beyond the range of the format. -/
def limit : Rat := pow2 1024

/-! ### Bit patterns -/

/-- A number of the format. The two zeros are one. -/
inductive Value where
  /-- A finite number. -/
  | finite (x : Rat)
  /-- Beyond all finite numbers. -/
  | infinite
  /-- Not a number. -/
  | undefined

/-- The number that a pattern of 64 bits stands for. -/
def ofBits (bits : Nat) : Value :=
  let negative := Nat.pow 2 63 ≤ bits
  let biased : Nat := bits / Nat.pow 2 52 % 2048
  let fraction : Nat := bits % Nat.pow 2 52
  if biased = 2047 then if fraction = 0 then .infinite else .undefined
  else
    let size : Rat :=
      if biased = 0 then (fraction : Rat) * pow2 (-1074)
      else ((Nat.pow 2 52 + fraction : Nat) : Rat) * pow2 ((biased : Int) - 1075)
    .finite (if negative then -size else size)

/-- The pattern of a finite number of the format. -/
def toBits (x : Rat) : Nat :=
  if x = 0 then 0
  else
    let sign := if x < 0 then Nat.pow 2 63 else 0
    let q := quantum x.abs
    let significand := (x.abs / pow2 q).floor.toNat
    if significand < Nat.pow 2 52 then sign + significand
    else sign + (q + 1075).toNat * Nat.pow 2 52 + (significand - Nat.pow 2 52)

end Coupling.Binary64
