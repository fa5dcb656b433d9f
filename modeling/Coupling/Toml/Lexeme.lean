import Coupling.Text.Front
import Coupling.Text.Hex
import Coupling.Toml.Value

/-!
# Strings, numbers, dates and comments of configuration files

Each reader takes the characters that are left and gives what it read and what follows it, or nothing if the text does
not follow the format.
-/

namespace Coupling.Toml

/-- A blank within a line. -/
def isBlank (c : Char) : Bool := c = ' ' || c = '\t'

/-- Control characters, which texts and comments may not hold; a tab is no such character. -/
def isControl (c : Char) : Bool := (c.toNat < 0x20 && c ≠ '\t') || c.toNat = 0x7F

/-- Drops a comment, if one begins here, up to the end of the line. -/
def skipComment : Chars → Option Chars
  | '#' :: rest =>
    if (rest.takeWhile (· ≠ '\n')).any isControl then none else some (rest.dropWhile (· ≠ '\n'))
  | s => some s

/-! ### Strings -/

/-- The character with a number given by `n` hexadecimal digits. -/
def hexChar? (n : Nat) (s : Chars) : Option (Char × Chars) := do
  let digits := s.take n
  if digits.length < n then none
  let v ← Hex.number? digits
  if h : v.isValidChar then some (Char.ofNatAux v h, s.drop n) else none

/-- Reads an escape after its backslash. In a text of several lines, a backslash at the end of a line drops the line
break and all blanks and line breaks after it. -/
def escape? (multiline : Bool) : Chars → Option (Chars × Chars)
  | 'b' :: rest => some (['\x08'], rest)
  | 't' :: rest => some (['\t'], rest)
  | 'n' :: rest => some (['\n'], rest)
  | 'f' :: rest => some (['\x0c'], rest)
  | 'r' :: rest => some (['\r'], rest)
  | '"' :: rest => some (['"'], rest)
  | '\\' :: rest => some (['\\'], rest)
  | 'u' :: rest => (hexChar? 4 rest).map fun (c, rest) => ([c], rest)
  | 'U' :: rest => (hexChar? 8 rest).map fun (c, rest) => ([c], rest)
  | c :: rest =>
    let ahead := if c = '\n' then c :: rest else rest.dropWhile isBlank
    if multiline ∧ (isBlank c ∨ c = '\n') then
      match ahead with
      | [] => some ([], [])
      | d :: rest => if d = '\n' then some ([], rest.dropWhile fun c => isBlank c || c = '\n') else none
    else none
  | [] => none

/-- Reads the rest of a text between `"`, up to the closing quote or quotes, in at most a number of steps. -/
def basicRest (multiline : Bool) : Nat → Chars → Option (Chars × Chars)
  | 0, _ => none
  | _ + 1, [] => none
  | n + 1, c :: rest =>
    if c = '"' then
      if multiline then
        match rest with
        | '"' :: '"' :: rest => some ([], rest)
        | _ => (basicRest multiline n rest).map fun (cs, rest) => (c :: cs, rest)
      else some ([], rest)
    else if c = '\\' then do
      let (cs, rest) ← escape? multiline rest
      let (ds, rest) ← basicRest multiline n rest
      some (cs ++ ds, rest)
    else if isControl c ∧ ¬(multiline ∧ c = '\n') then none
    else (basicRest multiline n rest).map fun (cs, rest) => (c :: cs, rest)

/-- Reads the rest of a text between `'`. -/
def literalRest : Chars → Option (Chars × Chars)
  | [] => none
  | c :: rest =>
    if c = '\'' then some ([], rest)
    else if isControl c then none
    else (literalRest rest).map fun (cs, rest) => (c :: cs, rest)

/-- Reads the rest of a text between `'''`. -/
def literalLinesRest : Chars → Option (Chars × Chars)
  | [] => none
  | c :: rest =>
    if "'''".toList.isPrefixOf (c :: rest) then some ([], rest.drop 2)
    else if isControl c ∧ c ≠ '\n' then none
    else (literalLinesRest rest).map fun (cs, rest) => (c :: cs, rest)

/-- Up to two quotes right after the closing quotes belong to the text. -/
def extraQuotes (quote : Char) (text rest : Chars) : Chars × Chars :=
  let extra := (rest.take 2).takeWhile (· = quote)
  (text ++ extra, rest.drop extra.length)

/-- A line break right after the opening quotes is dropped. -/
def dropFirstBreak : Chars → Chars
  | '\n' :: rest => rest
  | s => s

/-- Reads a text on one line, from its opening quote on. -/
def lineString? : Chars → Option (String × Chars)
  | '"' :: rest => (basicRest false (rest.length + 1) rest).map fun (cs, rest) => (String.ofList cs, rest)
  | '\'' :: rest => (literalRest rest).map fun (cs, rest) => (String.ofList cs, rest)
  | _ => none

/-- Reads a text of either form, from its opening quotes on. -/
def string? (s : Chars) : Option (String × Chars) :=
  if let some rest := dropWord? "\"\"\"" s then do
    let rest := dropFirstBreak rest
    let (cs, rest) ← basicRest true (rest.length + 1) rest
    let (cs, rest) := extraQuotes '"' cs rest
    some (String.ofList cs, rest)
  else if let some rest := dropWord? "'''" s then do
    let (cs, rest) ← literalLinesRest (dropFirstBreak rest)
    let (cs, rest) := extraQuotes '\'' cs rest
    some (String.ofList cs, rest)
  else lineString? s

/-! ### Numbers -/

/-- Reads more digits, with at most one low line before each. -/
def moreDigits (isDigit : Char → Bool) : Chars → Chars × Chars
  | [] => ([], [])
  | [c] => if isDigit c then ([c], []) else ([], [c])
  | c :: d :: rest =>
    if isDigit c then
      let (cs, rest) := moreDigits isDigit (d :: rest)
      (c :: cs, rest)
    else if c = '_' ∧ isDigit d then
      let (cs, rest) := moreDigits isDigit rest
      (d :: cs, rest)
    else ([], c :: d :: rest)

/-- Reads digits with low lines between them, at least one. -/
def digits? (isDigit : Char → Bool) : Chars → Option (Chars × Chars)
  | c :: rest =>
    if isDigit c then
      let (cs, rest) := moreDigits isDigit rest
      some (c :: cs, rest)
    else none
  | [] => none

/-- The number that digits spell in a base. -/
def spelled (base : Nat) (digits : Chars) : Nat := digits.foldl (fun n c => base * n + (Hex.value? c).getD 0) 0

/-- Reads the digits after `0x`, `0b` or `0o`. -/
def based? : Chars → Option (Nat × Chars)
  | '0' :: mark :: rest => do
    let base ← match mark with
      | 'x' => some 16
      | 'b' => some 2
      | 'o' => some 8
      | _ => none
    let (cs, rest) ← digits? (fun c => (Hex.value? c).any (· < base)) rest
    some (spelled base cs, rest)
  | _ => none

/-- Drops the places of a decimal number, if they are there. -/
def dropPlaces (s : Chars) : Chars :=
  match s with
  | '.' :: rest => (digits? Char.isDigit rest).elim s Prod.snd
  | _ => s

/-- Drops the sign of a number. -/
def dropSign : Chars → Chars
  | '+' :: rest => rest
  | '-' :: rest => rest
  | s => s

/-- Drops the power of ten of a decimal number, if it is there. -/
def dropPower (s : Chars) : Chars :=
  match s with
  | c :: rest => if c = 'e' ∨ c = 'E' then (digits? Char.isDigit (dropSign rest)).elim s Prod.snd else s
  | [] => s

/-- Reads a number in base ten. The first digit is zero only if it is the only one before the point. -/
def decimal? (s : Chars) : Option (Value × Chars) := do
  let unsigned := dropSign s
  let (digits, rest) ← match unsigned with
    | '0' :: rest => some (['0'], rest)
    | _ => digits? Char.isDigit unsigned
  let size : Int := spelled 10 digits
  let rest' := dropPower (dropPlaces rest)
  if rest'.length < rest.length then some (.float, rest')
  else some (.int (if s.head? = some '-' then -size else size), rest)

/-- Reads a number. -/
def number? (s : Chars) : Option (Value × Chars) :=
  match based? s with
  | some (n, rest) => some (.int n, rest)
  | none => decimal? s

/-- The most digits of an integer in base ten. -/
def digitLimit : Nat := 4300

/-- Whether an integer that was read from the front has too many digits. In the other bases there is no limit. -/
def isTooLong (s rest : Chars) : Bool :=
  (based? s).isNone && digitLimit < ((s.take (s.length - rest.length)).filter Char.isDigit).length

/-- Reads one of the numbers that have no digits. -/
def special? (s : Chars) : Option (Value × Chars) :=
  let unsigned := dropSign s
  ((dropWord? "inf" unsigned).or (dropWord? "nan" unsigned)).map fun rest => (.float, rest)

/-! ### Dates and times -/

/-- Reads a number of exactly `n` digits between bounds. -/
def bounded? (n low high : Nat) (s : Chars) : Option (Nat × Chars) :=
  let digits := s.take n
  let v := spelled 10 digits
  if digits.length = n ∧ digits.all Char.isDigit ∧ low ≤ v ∧ v ≤ high then some (v, s.drop n) else none

/-- Reads a time of day. -/
def time? (s : Chars) : Option Chars := do
  let (_, s) ← bounded? 2 0 23 s
  let (_, s) ← bounded? 2 0 59 (← dropWord? ":" s)
  let (_, s) ← bounded? 2 0 59 (← dropWord? ":" s)
  match s with
  | '.' :: c :: rest => some (if c.isDigit then rest.dropWhile Char.isDigit else s)
  | _ => some s

/-- Drops the offset of a time, if it is there. -/
def dropOffset (s : Chars) : Chars :=
  let offset? : Option Chars := match s with
    | 'Z' :: rest => some rest
    | 'z' :: rest => some rest
    | sign :: rest => do
      if sign ≠ '+' ∧ sign ≠ '-' then none
      let (_, rest) ← bounded? 2 0 23 rest
      let (_, rest) ← bounded? 2 0 59 (← dropWord? ":" rest)
      some rest
    | [] => none
  offset?.getD s

/-- The number of days of a month. -/
def monthDays (year month : Nat) : Nat :=
  if month = 2 then if year % 4 = 0 ∧ (year % 100 ≠ 0 ∨ year % 400 = 0) then 29 else 28
  else if month = 4 ∨ month = 6 ∨ month = 9 ∨ month = 11 then 30
  else 31

/-- Reads a date, and a time after it if there is one. Also tells whether the calendar has the date. -/
def date? (s : Chars) : Option (Bool × Chars) := do
  let (year, s) ← bounded? 4 0 9999 s
  let (month, s) ← bounded? 2 1 12 (← dropWord? "-" s)
  let (day, s) ← bounded? 2 1 31 (← dropWord? "-" s)
  let rest := match s with
    | c :: rest => if c = 'T' ∨ c = 't' ∨ c = ' ' then (time? rest).elim s dropOffset else s
    | [] => s
  some (1 ≤ year && day ≤ monthDays year month, rest)

/-- Reads a date, a time, or both, or a number. A date that the calendar does not have is no value. -/
def scalar? (s : Chars) : Option (Value × Chars) :=
  match date? s with
  | some (valid, rest) => if valid then some (.moment, rest) else none
  | none =>
    match time? s with
    | some rest => some (.moment, rest)
    | none => (number? s).or (special? s)

end Coupling.Toml
