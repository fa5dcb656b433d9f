import Coupling.Number.Decimal
import Coupling.Text.Hex
import Coupling.Text.Split

/-!
# JSON texts

The values of a report, and two ways to write them: on one line, and over several lines with two spaces of indentation
for each level. Either way only the characters from space to `~` appear inside strings: all others are written as
escapes, those beyond the first plane as a pair of them.
-/

namespace Coupling

/-- A value of a report. -/
inductive Json where
  /-- A text. -/
  | text (t : Text)
  /-- A count. -/
  | count (n : Nat)
  /-- A number of the floating-point format. -/
  | decimal (x : Rat)
  /-- A list. -/
  | list (items : List Json)
  /-- Values under names, in order. -/
  | record (fields : List (String × Json))

namespace Json

/-! ### Strings -/

/-- An escape by number. -/
def numbered (n : Nat) : Text := "\\u" ++ Hex.digits 4 n

/-- A code point inside a string. -/
def escaped (c : CodePoint) : Text :=
  if c = '"' then "\\\""
  else if c = '\\' then "\\\\"
  else if c = '\n' then "\\n"
  else if c = '\r' then "\\r"
  else if c = '\t' then "\\t"
  else if c.val = 0x08 then "\\b"
  else if c.val = 0x0C then "\\f"
  else if 0x20 ≤ c.val ∧ c.val ≤ 0x7E then [c]
  else if c.val < 0x10000 then numbered c.val
  else numbered (0xD800 + (c.val - 0x10000) / 0x400) ++ numbered (0xDC00 + (c.val - 0x10000) % 0x400)

/-- A string. -/
def quoted (t : Text) : Text := "\"" ++ t.flatMap escaped ++ "\""

/-! ### On one line -/

mutual

/-- A value on one line. -/
def line : Json → Text
  | .text t => quoted t
  | .count n => Text.ofNat n
  | .decimal x => Decimal.text x
  | .list items => "[" ++ Text.join ", " (lines items) ++ "]"
  | .record fields => "\x7b" ++ Text.join ", " (fieldLines fields) ++ "\x7d"

/-- Each value of a list on one line. -/
def lines : List Json → List Text
  | [] => []
  | v :: vs => v.line :: lines vs

/-- Each named value on one line. -/
def fieldLines : List (String × Json) → List Text
  | [] => []
  | (name, v) :: rest => (quoted name ++ ": " ++ v.line) :: fieldLines rest

end

/-! ### On several lines -/

/-- A new line at a level of indentation. -/
def newLine (level : Nat) : Text := '\n' :: List.replicate (2 * level) (' ' : CodePoint)

/-- Items on lines of their own, one level further in; nothing at all if there are none. -/
def block (level : Nat) (opening closing : Text) (items : List Text) : Text :=
  match items with
  | [] => opening ++ closing
  | items =>
    opening ++ newLine (level + 1) ++ Text.join ("," ++ newLine (level + 1)) items ++ newLine level ++ closing

mutual

/-- A value over several lines, at a level of indentation. -/
def indented (level : Nat) : Json → Text
  | .text t => quoted t
  | .count n => Text.ofNat n
  | .decimal x => Decimal.text x
  | .list items => block level "[" "]" (indentedAll (level + 1) items)
  | .record fields => block level "\x7b" "\x7d" (indentedFields (level + 1) fields)

/-- Each value of a list over several lines. -/
def indentedAll (level : Nat) : List Json → List Text
  | [] => []
  | v :: vs => v.indented level :: indentedAll level vs

/-- Each named value over several lines. -/
def indentedFields (level : Nat) : List (String × Json) → List Text
  | [] => []
  | (name, v) :: rest => (quoted name ++ ": " ++ v.indented level) :: indentedFields level rest

end

end Json

end Coupling
