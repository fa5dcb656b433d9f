import Coupling.Text.CharClass
import Coupling.Text.Split

/-!
# Integer numerals

An integer is written with decimal digits of any script. A sign may stand in front, single low lines between digits, and
blanks around the whole.
-/

namespace Coupling.Numeral

/-- The largest number of digits that is read. -/
def maxDigits : Nat := 4300

/-- A blank around a numeral. -/
def isBlank (c : CodePoint) : Bool := if c.val < 0x80 then (9 ≤ c.val && c.val ≤ 13) || c.val = 32 else c.isBlank

/-- The values of digits with single low lines between them. -/
def digits? : Text → Option (List Nat)
  | [] => none
  | [c] => c.decimalValue?.map ([·])
  | c :: d :: t => do
    let v ← c.decimalValue?
    let vs ← if d = '_' then digits? t else digits? (d :: t)
    some (v :: vs)

/-- The number that digits spell. -/
def unsigned? (t : Text) : Option Nat := do
  let vs ← digits? t
  if vs.length ≤ maxDigits then some (vs.foldl (fun n v => 10 * n + v) 0) else none

/-- The integer that a text spells. -/
def int? (t : Text) : Option Int :=
  match Text.trim isBlank t with
  | [] => none
  | c :: rest =>
    if c = '-' then (unsigned? rest).map fun n => -(n : Int)
    else if c = '+' then (unsigned? rest).map fun n => (n : Int)
    else (unsigned? (c :: rest)).map fun n => (n : Int)

end Coupling.Numeral
