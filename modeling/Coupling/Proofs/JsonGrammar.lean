import Coupling.ClassFile.ModifiedUtf8
import Coupling.Text.Hex

/-!
# The grammar of JSON

A JSON text stands for a datum: a word, a number, a string, a list of data, or data under names. Blanks may stand around
every datum and every name.
-/

namespace Coupling

open ModifiedUtf8 (joinPairs)

/-- What a JSON text stands for. A number with a point or an exponent is kept as it is written. -/
inductive Datum where
  /-- Nothing. -/
  | null
  /-- True or false. -/
  | truth (b : Bool)
  /-- A number without a point and without an exponent. -/
  | integer (n : Int)
  /-- Any other number. -/
  | decimal (numeral : Text)
  /-- A text. -/
  | text (t : Text)
  /-- A list. -/
  | list (items : List Datum)
  /-- Data under names, in order. -/
  | record (fields : List (Text × Datum))

namespace Datum

/-! ### Words and blanks -/

/-- The words and what they stand for. -/
def words : List (Text × Datum) := [("null", .null), ("true", .truth true), ("false", .truth false)]

/-- May stand around a datum. -/
def isBlank (c : CodePoint) : Bool := c = ' ' || c = '\t' || c = '\n' || c = '\r'

/-- A text of blanks. -/
def Blanks (t : Text) : Prop := ∀ c ∈ t, isBlank c = true

/-! ### Strings -/

/-- The escapes of two code points: the second one, and what it stands for. -/
def shorts : List (CodePoint × CodePoint) :=
  [('"', '"'), ('\\', '\\'), ('/', '/'), ('b', '\x08'), ('f', '\x0c'), ('n', '\n'), ('r', '\r'), ('t', '\t')]

/-- The code point that hexadecimal digits of either case spell. -/
def unit? (digits : Text) : Option CodePoint :=
  ((digits.mapM CodePoint.toChar?).bind Hex.number?).map CodePoint.ofNat

/-- One code point in a string. -/
inductive Piece : Text → CodePoint → Prop where
  /-- Any code point but a quote, a backslash and the control characters stands for itself. -/
  | plain {c : CodePoint} : c ≠ '"' → c ≠ '\\' → 0x20 ≤ c.val → Piece [c] c
  /-- A short escape. -/
  | short {e c : CodePoint} : shorts.lookup e = some c → Piece ['\\', e] c
  /-- An escape by number. -/
  | numbered {digits : Text} {c : CodePoint} : digits.length = 4 → unit? digits = some c → Piece ('\\' :: 'u' :: digits) c

/-- What stands between the quotes of a string, and the code points that it spells. -/
inductive Pieces : Text → Text → Prop where
  /-- Nothing spells nothing. -/
  | nil : Pieces [] []
  /-- One more in front. -/
  | cons {piece body points : Text} {c : CodePoint} : Piece piece c → Pieces body points →
    Pieces (piece ++ body) (c :: points)

/-- A string. Two halves of a pair that meet are one code point. -/
def IsString (t s : Text) : Prop :=
  ∃ body points, Pieces body points ∧ t = ('"' : CodePoint) :: (body ++ [('"' : CodePoint)]) ∧ s = joinPairs points

/-! ### Numbers -/

/-- A decimal digit. -/
def isDigit (c : CodePoint) : Bool := 0x30 ≤ c.val && c.val ≤ 0x39

/-- One digit or more. -/
def isDigits (t : Text) : Bool := !t.isEmpty && t.all isDigit

/-- Digits that do not begin with a zero, or zero itself. -/
def isWhole (t : Text) : Bool := isDigits t && (t = [('0' : CodePoint)] || t.head? ≠ some ('0' : CodePoint))

/-- Nothing, or digits behind a point. -/
def isFraction : Text → Bool
  | [] => true
  | c :: digits => c = '.' && isDigits digits

/-- Nothing, or digits behind a mark, with a sign or without one. -/
def isExponent : Text → Bool
  | [] => true
  | c :: t => (c = 'e' || c = 'E') &&
    isDigits (if t.head? = some ('+' : CodePoint) ∨ t.head? = some ('-' : CodePoint) then t.tail else t)

/-- The number that digits spell. -/
def natural (digits : Text) : Nat := digits.foldl (fun n c => 10 * n + (c.val - 0x30)) 0

/-- What a number stands for, from its sign, its whole part and what follows that. -/
def ofParts (sign whole more : Text) : Datum :=
  if more ≠ [] then .decimal (sign ++ (whole ++ more))
  else if sign = [] then .integer (natural whole)
  else .integer (-(natural whole : Int))

/-- A number. -/
inductive IsNumber : Text → Datum → Prop where
  /-- A whole part with a minus sign or without one, and behind it a fraction, an exponent, both or neither. -/
  | mk {sign whole fraction exponent : Text} : sign = [] ∨ sign = [('-' : CodePoint)] → isWhole whole = true →
    isFraction fraction = true → isExponent exponent = true →
    IsNumber (sign ++ (whole ++ (fraction ++ exponent))) (ofParts sign whole (fraction ++ exponent))

/-! ### Lists and records -/

/-- One item or more with commas between them and with blanks around each. -/
inductive Listed {α : Type} (Item : Text → α → Prop) : Text → List α → Prop where
  /-- The last item. -/
  | last {b t b' : Text} {a : α} : Blanks b → Item t a → Blanks b' → Listed Item (b ++ (t ++ b')) [a]
  /-- One more in front. -/
  | more {b t b' u : Text} {a : α} {items : List α} : Blanks b → Item t a → Blanks b' → Listed Item u items →
    Listed Item (b ++ (t ++ (b' ++ (',' : CodePoint) :: u))) (a :: items)

/-- Items between brackets, or blanks alone. -/
inductive Bracketed {α : Type} (opening closing : CodePoint) (Item : Text → α → Prop) : Text → List α → Prop where
  /-- No items. -/
  | empty {b : Text} : Blanks b → Bracketed opening closing Item (opening :: (b ++ [closing])) []
  /-- Some items. -/
  | full {u : Text} {items : List α} : Listed Item u items →
    Bracketed opening closing Item (opening :: (u ++ [closing])) items

/-- An item under a name. -/
inductive Member {α : Type} (Item : Text → α → Prop) : Text → Text × α → Prop where
  /-- A name, a colon and an item, with blanks around the colon. -/
  | mk {n b b' t name : Text} {a : α} : IsString n name → Blanks b → Blanks b' → Item t a →
    Member Item (n ++ (b ++ (':' : CodePoint) :: (b' ++ t))) (name, a)

/-- A text stands for a datum. -/
inductive Spells : Text → Datum → Prop where
  /-- A word. -/
  | word {t : Text} {v : Datum} : (t, v) ∈ words → Spells t v
  /-- A number. -/
  | number {t : Text} {v : Datum} : IsNumber t v → Spells t v
  /-- A string. -/
  | text {t s : Text} : IsString t s → Spells t (.text s)
  /-- A list. -/
  | list {t : Text} {items : List Datum} : Bracketed '[' ']' Spells t items → Spells t (.list items)
  /-- A record. -/
  | record {t : Text} {fields : List (Text × Datum)} : Bracketed '\x7b' '\x7d' (Member Spells) t fields →
    Spells t (.record fields)

/-- A text stands for a datum, with blanks around it. -/
def IsJson (t : Text) (v : Datum) : Prop := ∃ b u b', Blanks b ∧ Spells u v ∧ Blanks b' ∧ t = b ++ (u ++ b')

end Datum

end Coupling
