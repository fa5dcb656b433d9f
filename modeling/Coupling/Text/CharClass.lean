import Coupling.Text.CharTable
import Coupling.Text.CodePoint

/-!
# What kind of character a code point is

Quoted output shows printable characters as they are, source files divide at blank characters, and words and
identifiers are made of letters, digits and a few more. All of these are unions of the classes here.
-/

namespace Coupling

/-- The classes of code points that the formats of this library tell apart. -/
inductive CharClass where
  /-- Control, format, surrogate, private-use and unassigned code points. -/
  | hidden
  /-- Visible characters of no class below. -/
  | symbol
  /-- Letters of every case, and of none. -/
  | letter
  /-- Combining marks. -/
  | mark
  /-- Decimal digits. -/
  | decimal
  /-- Numbers that look like letters. -/
  | letterNumber
  /-- Other numbers. -/
  | otherNumber
  /-- The low line and its like. -/
  | connector
  /-- Currency signs. -/
  | currency
  /-- Spaces, line and paragraph separators. -/
  | separator
  deriving DecidableEq

namespace CharClass

/-- The class with a given index in the table. -/
def ofIndex : Nat → CharClass
  | 1 => symbol
  | 2 => letter
  | 3 => mark
  | 4 => decimal
  | 5 => letterNumber
  | 6 => otherNumber
  | 7 => connector
  | 8 => currency
  | 9 => separator
  | _ => hidden

end CharClass

namespace CodePoint

/-- The class of the last run that starts at or before the code point. -/
def charClass (c : CodePoint) : CharClass :=
  CharClass.ofIndex <| CharTable.runs.foldl
    (fun k chunk => chunk.foldl (fun k run => if run / 16 ≤ c.val then run % 16 else k) k) 0

/-- Shown as it is inside quotes: everything visible, and the space. -/
def isPrintable (c : CodePoint) : Bool :=
  if c.val < 0x7F then 0x20 ≤ c.val else
    match c.charClass with
    | .hidden | .separator => false
    | _ => true

/-- Blank: separators, and the control characters that move the print position or separate records. -/
def isBlank (c : CodePoint) : Bool :=
  if c.val < 0x80 then (9 ≤ c.val && c.val ≤ 13) || (28 ≤ c.val && c.val ≤ 32) else
    c.val = 0x85 || c.charClass = .separator

/-- Part of a word: letters, numbers and the low line. -/
def isWord (c : CodePoint) : Bool :=
  if c.val < 0x80 then
    (0x30 ≤ c.val && c.val ≤ 0x39) || (0x41 ≤ c.val && c.val ≤ 0x5A) || (0x61 ≤ c.val && c.val ≤ 0x7A) || c.val = 0x5F
  else
    match c.charClass with
    | .letter | .decimal | .letterNumber | .otherNumber => true
    | _ => false

/-- May begin an identifier of a source file. -/
def startsIdentifier (c : CodePoint) : Bool :=
  match c.charClass with
  | .letter | .letterNumber | .connector | .currency => true
  | _ => false

/-- May stand inside an identifier of a source file. -/
def continuesIdentifier (c : CodePoint) : Bool :=
  match c.charClass with
  | .letter | .letterNumber | .connector | .currency | .mark | .decimal => true
  | _ => false

/-- The value of a decimal digit of any script. Digits come in aligned blocks of ten, one after the other, so the value
is the distance from the first digit of the run, modulo ten. -/
def decimalValue? (c : CodePoint) : Option Nat :=
  let start := CharTable.runs.foldl
    (fun s chunk => chunk.foldl (fun s run => if run / 16 ≤ c.val then run else s) s) 0
  if start % 16 = 4 then some ((c.val - start / 16) % 10) else none

end CodePoint

end Coupling
