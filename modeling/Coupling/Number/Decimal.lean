import Coupling.Number.Binary64

/-!
# Decimal numerals

Two ways to write a number of a binary format: with the fewest digits that read back as the same number, and with a
fixed number of places.
-/

namespace Coupling.Decimal

/-- Ten to an integer power. -/
def pow10 (e : Int) : Rat := if 0 ≤ e then (Nat.pow 10 e.toNat : Rat) else 1 / (Nat.pow 10 (-e).toNat : Rat)

/-- The exponent of the largest power of ten that is not above a positive number. -/
def exponent (x : Rat) : Int :=
  let guess := ((Nat.toDigits 10 x.num.natAbs).length : Int) - (Nat.toDigits 10 x.den).length
  if pow10 guess ≤ x then guess else guess - 1

/-- The neighbour of `x` on the grid of numbers with `n` digits that reads back as `x`, as a multiple of the step of the
grid. Of two, the nearer one. -/
def onGrid? (read : Rat → Rat) (x : Rat) (n : Nat) : Option (Nat × Int) :=
  let step := exponent x - n + 1
  let below := (x / pow10 step).floor
  let reads (k : Int) : Bool := read (k * pow10 step) = x
  let distance (k : Int) : Rat := (x - k * pow10 step).abs
  let best :=
    if reads below then
      if reads (below + 1) && distance (below + 1) < distance below then some (below + 1) else some below
    else if reads (below + 1) then some (below + 1)
    else none
  best.map fun k => (k.toNat, step)

/-- The fewest digits that read back as a positive number of the format, at most seventeen, and the power of ten of the
last one. -/
def shortest (x : Rat) : Nat × Int :=
  let grids := (List.range 17).map fun n => n + 1
  (grids.findSome? (onGrid? Binary64.round x)).getD ((x / pow10 (exponent x - 16)).floor.toNat, exponent x - 16)

/-- Drops zeros at the end of a numeral. -/
def trimZeros (digits : List Char) : List Char := (digits.reverse.dropWhile (· = '0')).reverse

/-- A numeral with a point after `n` of its digits, padded with zeros where digits are missing. -/
def point (digits : List Char) (n : Int) : String :=
  if n ≤ 0 then "0." ++ String.ofList (List.replicate (-n).toNat '0' ++ digits)
  else
    let whole := digits.take n.toNat ++ List.replicate (n.toNat - digits.length) '0'
    let places := digits.drop n.toNat
    String.ofList whole ++ "." ++ (if places = [] then "0" else String.ofList places)

/-- A numeral with one digit before the point and a power of ten. -/
def scientific (digits : List Char) (e : Int) : String :=
  let mantissa := match digits with
    | [] => "0"
    | [d] => String.singleton d
    | d :: ds => String.singleton d ++ "." ++ String.ofList ds
  let sign := if e < 0 then "-" else "+"
  let size := toString e.natAbs
  mantissa ++ "e" ++ sign ++ (if size.length < 2 then "0" ++ size else size)

/-- A number of the format with the fewest digits that read back, always with a point. From ten to the sixteenth on, and
below one ten-thousandth, it is written with a power of ten. -/
def text (x : Rat) : String :=
  if x = 0 then "0.0"
  else
    let (k, step) := shortest x.abs
    let digits := Nat.toDigits 10 k
    let e := step + digits.length - 1
    let digits := trimZeros digits
    let sign := if x < 0 then "-" else ""
    sign ++ (if e < -4 ∨ 16 ≤ e then scientific digits e else point digits (e + 1))

/-- A number with a fixed number of places; halfway cases go to the even neighbour. -/
def fixed (places : Nat) (x : Rat) : String :=
  let k := (Binary64.nearestEven (x.abs * pow10 places)).toNat
  let digits := Nat.toDigits 10 k
  let digits := List.replicate (places + 1 - digits.length) '0' ++ digits
  let whole := digits.take (digits.length - places)
  (if x < 0 then "-" else "") ++ String.ofList whole ++ "." ++ String.ofList (digits.drop (digits.length - places))

end Coupling.Decimal
