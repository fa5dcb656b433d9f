import Coupling.Text.CharClass
import Coupling.Text.Hex

/-!
# Quoted texts

Messages show a text between quotes. The quote is `'`, unless the text holds a `'` and no `"`. The quote and the
backslash are written after a backslash, line feed, carriage return and tab by name, and every other code point that is
not printable by its number, in the shortest of three widths.
-/

namespace Coupling.Quoted

/-- The quote to put around a text. -/
def delimiter (t : Text) : Char :=
  if (t.contains ('\'' : CodePoint)) && !(t.contains ('"' : CodePoint)) then '"' else '\''

/-- A code point by its number: two, four or eight digits. -/
def numbered (n : Nat) : String :=
  if n < 0x100 then "\\x" ++ Hex.digits 2 n
  else if n < 0x10000 then "\\u" ++ Hex.digits 4 n
  else "\\U" ++ Hex.digits 8 n

/-- One code point between quotes of a given kind. -/
def escaped (quote : Char) (c : CodePoint) : String :=
  if c = quote ∨ c = '\\' then "\\" ++ (c.toChar?.elim "" String.singleton)
  else if c = '\n' then "\\n"
  else if c = '\r' then "\\r"
  else if c = '\t' then "\\t"
  else if c.isPrintable then c.toChar?.elim (numbered c.val) String.singleton
  else numbered c.val

/-- A text between quotes. -/
def text (t : Text) : String :=
  let quote := delimiter t
  String.singleton quote ++ String.join (t.map (escaped quote)) ++ String.singleton quote

/-- Items between brackets, with a comma and a space between them. -/
def bracketed (items : List String) : String := "[" ++ ", ".intercalate items ++ "]"

/-- A list of texts, each between quotes. -/
def list (ts : List Text) : String := bracketed (ts.map text)

end Coupling.Quoted
