import Coupling.Text.Front
import Coupling.Text.Split
import Coupling.Text.Utf8
import Coupling.Xml.CodePages

/-!
# Encodings of documents

The first bytes of a document show whether its characters take one byte or two, and the declaration at its front may name
an encoding. Four encodings are known by themselves, and all others come from the code pages.
-/

namespace Coupling.Xml

/-- Why a document cannot be read. -/
inductive Fault where
  /-- It is not well formed. -/
  | malformed
  /-- It declares an encoding that does not exist. -/
  | unknownEncoding
  /-- It declares an encoding in which a character may take several bytes, other than those of Unicode. -/
  | multiByte
  deriving DecidableEq

/-- A blank between the parts of a tag. -/
def isBlank (c : Char) : Bool := c = ' ' || c = '\t' || c = '\n' || c = '\r'

/-! ### Bytes and characters -/

/-- How the bytes of a document stand for characters. -/
inductive Encoding where
  /-- One to four bytes for each character. -/
  | utf8
  /-- Units of two bytes, with the higher or the lower byte in front. -/
  | utf16 (higherFirst : Bool)
  /-- One byte for each character, given those of the bytes from `80` on. -/
  | page (upper : Chars)

namespace Encoding

/-- The encoding of ASCII, in which the bytes from `80` on have no characters. -/
def ascii : Encoding := page []

/-- The encoding in which every byte has the number of its character. -/
def latin1 : Encoding := page ((List.range 0x80).map fun n => Char.ofNat (n + 0x80))

/-- The number of bytes of a unit. -/
def width : Encoding → Nat
  | utf16 _ => 2
  | utf8 | page _ => 1

/-- Units of two bytes; a byte that is left over makes none. -/
def doubles (higherFirst : Bool) : List UInt8 → List Nat
  | a :: b :: rest =>
    (if higherFirst then 256 * a.toNat + b.toNat else 256 * b.toNat + a.toNat) :: doubles higherFirst rest
  | _ => []

/-- The units of a document. -/
def units : Encoding → List UInt8 → List Nat
  | utf16 higherFirst, bytes => doubles higherFirst bytes
  | utf8, bytes | page _, bytes => bytes.map UInt8.toNat

/-- The characters of units of two bytes; a character of two units is a high one and a low one. -/
def ofDoubles? : List Nat → Option Chars
  | [] => some []
  | u :: rest =>
    if 0xD800 ≤ u ∧ u < 0xDC00 then
      match rest with
      | [] => none
      | v :: rest =>
        if 0xDC00 ≤ v ∧ v < 0xE000 then
          (ofDoubles? rest).map (Char.ofNat (0x10000 + 0x400 * (u - 0xD800) + (v - 0xDC00)) :: ·)
        else none
    else if 0xDC00 ≤ u ∧ u < 0xE000 then none
    else (ofDoubles? rest).map (Char.ofNat u :: ·)

/-- The character of a byte in a code page. -/
def pageChar? (upper : Chars) (b : UInt8) : Option Char :=
  if b < 0x80 then some (Char.ofNat b.toNat)
  else upper[b.toNat - 0x80]?.bind fun c => if c = '�' then none else some c

/-- The characters that bytes stand for. -/
def decode? : Encoding → List UInt8 → Option Chars
  | utf8, bytes => Utf8.decode? bytes
  | utf16 higherFirst, bytes => if bytes.length % 2 = 0 then ofDoubles? (doubles higherFirst bytes) else none
  | page upper, bytes => bytes.mapM (pageChar? upper)

/-- The encoding that the first bytes show, and the bytes after the mark that says so, if there is one. -/
def detect : List UInt8 → Encoding × List UInt8
  | 0xFE :: 0xFF :: rest => (utf16 true, rest)
  | 0xFF :: 0xFE :: rest => (utf16 false, rest)
  | 0xEF :: 0xBB :: 0xBF :: rest => (utf8, rest)
  | 0 :: b :: rest => (utf16 true, 0 :: b :: rest)
  | a :: 0 :: rest => (utf16 false, a :: 0 :: rest)
  | bytes => (utf8, bytes)

/-! ### Encodings by name -/

/-- A name as code pages have it: in small letters, with a low line for each row of other signs inside. -/
def pageName (name : Chars) : String :=
  let words := (Text.split '_' (name.map fun c => if c.isAlphanum || c = '.' then c.toLower else '_')).filter (· ≠ [])
  String.intercalate "_" (words.map String.ofList)

/-- The encoding with a name among the code pages. -/
def ofPageName (name : Chars) : Except Fault Encoding :=
  let isNamed (names : List String) : Bool :=
    names.contains (pageName name) || names.contains (pageName (name.map fun c => if c = '.' then '_' else c))
  if isNamed CodePage.ascii then .ok ascii
  else if isNamed CodePage.multiByte then .error .multiByte
  else if isNamed CodePage.unfit then .error .malformed
  else
    match CodePage.all.find? fun found => isNamed found.names with
    | none => .error .unknownEncoding
    | some found =>
      let upper := found.upper.toList
      .ok (.page (if upper.length = 96 then (List.range 32).map (fun n => Char.ofNat (n + 0x80)) ++ upper else upper))

/-- The encoding with a name, in a document whose encoding was shown by its first bytes. Encodings with another width of
units do not fit. -/
def change (shown : Encoding) (name : Chars) : Except Fault Encoding :=
  match (String.ofList name).toUpper, shown with
  | "UTF-8", utf16 _ | "ISO-8859-1", utf16 _ | "US-ASCII", utf16 _ => .error .malformed
  | "UTF-8", _ => .ok utf8
  | "ISO-8859-1", _ => .ok latin1
  | "US-ASCII", _ => .ok ascii
  | "UTF-16", utf16 _ => .ok shown
  | "UTF-16BE", utf16 true => .ok shown
  | "UTF-16LE", utf16 false => .ok shown
  | "UTF-16", _ | "UTF-16BE", _ | "UTF-16LE", _ => .error .malformed
  | _, _ => ofPageName name

end Encoding

/-! ### Declarations -/

/-- What the declaration of a document says. -/
structure Declaration where
  /-- The name of the encoding. -/
  encoding : Option Chars := none
  /-- Whether the document stands alone. -/
  isAlone : Bool := false

namespace Declaration

/-- A character of a value. -/
def inValue (c : Char) : Bool := c.isAlphanum || c = '.' || c = '-' || c = '_'

/-- Reads names with their values, each after a blank, in at most a number of steps. -/
def parts? : Nat → Chars → Option (List (String × Chars))
  | 0, _ => none
  | n + 1, s =>
    let rest := s.dropWhile isBlank
    if rest = [] then some []
    else if rest.length = s.length then none
    else do
      let name := rest.takeWhile fun c => !(isBlank c || c = '=')
      let rest ← dropWord? "=" ((rest.drop name.length).dropWhile isBlank)
      match rest.dropWhile isBlank with
      | quote :: rest =>
        if quote ≠ '"' ∧ quote ≠ '\'' then none
        let value := rest.takeWhile inValue
        let after ← dropWord? (String.singleton quote) (rest.drop value.length)
        some ((String.ofList name, value) :: (← parts? n after))
      | [] => none

/-- The name of an encoding begins with a letter. -/
def isEncodingName (value : Chars) : Bool := value.head?.any Char.isAlpha

/-- Whether a document stands alone, in words. -/
def alone? (value : Chars) : Option Bool :=
  if value = "yes".toList then some true else if value = "no".toList then some false else none

/-- Reads a declaration between its first word and its end: a version, then perhaps an encoding, then perhaps whether the
document stands alone. -/
def parse? (s : Chars) : Option Declaration := do
  match ← parts? (s.length + 1) s with
  | [("version", _)] => some {}
  | [("version", _), ("encoding", e)] => if isEncodingName e then some { encoding := some e } else none
  | [("version", _), ("standalone", v)] => some { isAlone := ← alone? v }
  | [("version", _), ("encoding", e), ("standalone", v)] =>
    if isEncodingName e then some { encoding := some e, isAlone := ← alone? v } else none
  | _ => none

end Declaration

/-- The declaration of a document and the characters after it. -/
def characters (bytes : List UInt8) : Except Fault (Declaration × Chars) := do
  let (shown, bytes) := Encoding.detect bytes
  let decoded (encoding : Encoding) (bytes : List UInt8) : Except Fault Chars :=
    (encoding.decode? bytes).elim (.error .malformed) .ok
  let front : Chars := (shown.units bytes).map Char.ofNat
  match (dropWord? "<?xml" front).filter fun rest => rest.head?.any fun c => isBlank c || c = '?' with
  | none => pure ({}, ← decoded shown bytes)
  | some rest =>
    match (splitAt? "?>" rest).bind fun (body, after) => (Declaration.parse? body).map (·, after) with
    | none => throw .malformed
    | some (declaration, after) =>
      let encoding ← declaration.encoding.elim (.ok shown) shown.change
      pure (declaration, ← decoded encoding (bytes.drop (shown.width * (front.length - after.length))))

end Coupling.Xml
