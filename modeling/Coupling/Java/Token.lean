import Coupling.Text.CharClass
import Coupling.Text.Hex
import Coupling.Text.Split

/-!
# Tokens of Java source files

A source file is cut into tokens: identifiers, keywords, literals and symbols. Blanks and comments only divide them.
Escapes by number are resolved first, wherever they stand. Two closing angle brackets are two tokens, since they may
close two lists of type arguments.
-/

namespace Coupling.Java

/-- A token. Of a literal only its being there matters. -/
inductive Token where
  | identifier (name : String)
  | keyword (word : String)
  | literal
  | symbol (text : String)
  deriving DecidableEq

/-- What stops the cutting. -/
inductive LexProblem where
  /-- An escape by number without its digits. -/
  | badNumber
  /-- A literal without its closing quote. -/
  | openLiteral
  /-- A backslash before a character that has no meaning there. -/
  | badEscape
  /-- A comment without its end. -/
  | openComment
  /-- A character that begins no token. -/
  | strayCharacter
  deriving DecidableEq

/-- The words for a problem. -/
def LexProblem.message : LexProblem → String
  | .badNumber => "Invalid unicode escape"
  | .openLiteral => "Unterminated character/string literal"
  | .badEscape => "Illegal escape character"
  | .openComment => "Unterminated block comment"
  | .strayCharacter => "Could not process token"

/-- A problem, and where it is. -/
structure LexFault where
  /-- What the problem is. -/
  problem : LexProblem
  /-- The character that is shown for it. -/
  character : Char
  /-- The number of the line. -/
  line : Nat
  /-- The line. -/
  text : List Char
  deriving DecidableEq

/-- The words for a fault. -/
def LexFault.message (f : LexFault) : String :=
  s!"{f.problem.message} at \"{f.character}\", line {f.line}: {String.ofList f.text}"

/-! ### Words and symbols -/

/-- The words for the types of numbers and truth values. -/
def basicTypes : List String := ["boolean", "byte", "char", "double", "float", "int", "long", "short"]

/-- The words that may stand before a declaration. -/
def modifiers : List String :=
  ["abstract", "default", "final", "native", "private", "protected", "public", "static", "strictfp", "synchronized",
    "transient", "volatile"]

/-- All reserved words. -/
def keywords : List String :=
  basicTypes ++ modifiers ++
    ["assert", "break", "case", "catch", "class", "const", "continue", "do", "else", "enum", "extends", "finally", "for",
      "goto", "if", "implements", "import", "instanceof", "interface", "new", "package", "return", "super", "switch",
      "this", "throw", "throws", "try", "void", "while"]

/-- The words that are literals. -/
def literalWords : List String := ["true", "false", "null"]

/-- The symbols of one character that always stand alone. -/
def separators : List Char := ['(', ')', '{', '}', '[', ']', ';', ',', '.']

/-- The operators, longer ones first. -/
def operators : List String :=
  [">>>=", ">>=", "<<=", "...", "%=", "^=", "|=", "&=", "/=", "*=", "-=", "+=", "<<", "--", "++", "||", "&&", "!=", ">=",
    "<=", "==", "->", "::", "%", "^", "|", "&", "/", "*", "-", "+", ":", "?", "~", "!", "<", ">", "="]

/-- The token of a word. -/
def Token.ofWord (word : String) : Token :=
  if keywords.contains word then .keyword word
  else if literalWords.contains word then .literal
  else .identifier word

/-! ### Escapes by number -/

/-- A line without the blanks at its ends. -/
def trimLine (line : List Char) : List Char :=
  let blank (c : Char) : Bool := CodePoint.isBlank c
  ((line.dropWhile blank).reverse.dropWhile blank).reverse

/-- The line that is shown for a place. The last character of the last line is not shown, unless a line break ends it. -/
def lineAt (source : List Char) (offset : Nat) : List Char :=
  let start := ((source.take offset).reverse.takeWhile (· ≠ '\n')).reverse
  let rest := source.drop offset
  let ending := rest.takeWhile (· ≠ '\n')
  trimLine (if ending.length < rest.length then start ++ ending else (start ++ ending).dropLast)

/-- Replaces the escapes by number, in at most a number of steps; otherwise the character at which one goes wrong. A
backslash after a backslash begins no escape. -/
def unescape : Nat → List Char → Except Char (List Char)
  | 0, s => .ok s
  | _, [] => .ok []
  | n + 1, '\\' :: 'u' :: rest =>
    let digits := rest.dropWhile (· = 'u')
    match digits with
    | [] => .ok []
    | d :: _ =>
      match Hex.number? (digits.take 4) with
      | some v => (unescape n (digits.drop 4)).map (Char.ofNat v :: ·)
      | none => .error d
  | n + 1, '\\' :: c :: rest => (unescape n rest).map fun s => '\\' :: c :: s
  | n + 1, c :: rest => (unescape n rest).map (c :: ·)

/-! ### Literals -/

/-- What may come next inside a literal. -/
inductive LiteralState where
  /-- Any character. -/
  | plain
  /-- The character after a backslash. -/
  | escape
  /-- One more octal digit, after one of up to three. -/
  | octal
  /-- The last octal digit. -/
  | lastOctal

/-- What follows a literal after its opening quote; nothing if it does not end, or the character that may not be
escaped. -/
def literalRest (quote : Char) : LiteralState → List Char → Except (Option Char) (List Char)
  | _, [] => .error none
  | .escape, c :: rest =>
    if "btnfru\"'\\".toList.contains c then literalRest quote .plain rest
    else if "0123".toList.contains c then literalRest quote .octal rest
    else if "4567".toList.contains c then literalRest quote .lastOctal rest
    else .error (some c)
  | state, c :: rest =>
    if c = '\\' then literalRest quote .escape rest
    else if c = quote then .ok rest
    else
      match state with
      | .octal => literalRest quote (if "01234567".toList.contains c then .lastOctal else .octal) rest
      | _ => literalRest quote .plain rest

/-- Drops digits with low lines between them, and the mark of a long number. -/
def dropDigits (isDigit : Char → Bool) (s : List Char) : List Char :=
  let run := s.takeWhile fun c => isDigit c || c = '_'
  let taken := run.reverse.dropWhile (· = '_')
  let rest := s.drop taken.length
  match s.drop run.length with
  | c :: _ => if (c = 'l' ∨ c = 'L') ∧ taken.length = run.length then rest.drop 1 else rest
  | [] => rest

/-- Drops a character if it is one of some. -/
def dropOne (choices : String) : List Char → List Char
  | c :: rest => if choices.toList.contains c then rest else c :: rest
  | [] => []

/-- Drops the rest of a number after its whole part: places, a power, and the mark of its type. -/
def dropFraction (isDigit : Char → Bool) (powers : String) (s : List Char) : List Char :=
  let places := match s with
    | '.' :: rest => dropDigits isDigit rest
    | _ => s
  let power := match places with
    | c :: rest => if powers.toList.contains c then dropDigits Char.isDigit (dropOne "+-" rest) else places
    | [] => []
  dropOne "fFdD" power

/-- What follows the number at the front. -/
def dropNumber : List Char → List Char
  | '0' :: c :: rest =>
    if c = 'x' ∨ c = 'X' then
      let isDigit (c : Char) : Bool := (Hex.value? c).isSome
      let whole := dropDigits isDigit rest
      match whole with
      | d :: _ => if ".pP".toList.contains d then dropFraction isDigit "pP" whole else whole
      | [] => []
    else if c = 'b' ∨ c = 'B' then dropDigits (fun d => d = '0' || d = '1') rest
    else if '0' ≤ c ∧ c ≤ '7' then dropDigits (fun d => '0' ≤ d && d ≤ '7') (c :: rest)
    else dropFraction Char.isDigit "eE" (dropDigits Char.isDigit ('0' :: c :: rest))
  | s => dropFraction Char.isDigit "eE" (dropDigits Char.isDigit s)

/-! ### Cutting -/

/-- What follows the end of a block comment, if it has one. -/
def commentRest? : List Char → Option (List Char)
  | '*' :: '/' :: rest => some rest
  | _ :: rest => commentRest? rest
  | [] => none

/-- A piece of a source file. -/
inductive Piece where
  /-- Blanks or a comment. -/
  | gap
  /-- A token. -/
  | token (t : Token)

/-- The first piece of a text, and what follows it. A problem may come with the character to show. -/
def firstPiece (s : List Char) : Except (LexProblem × Option Char) (Piece × List Char) :=
  match s with
  | [] => .ok (.gap, [])
  | c :: rest =>
    let number : Piece × List Char := (.token .literal, dropNumber s)
    if CodePoint.isBlank c then .ok (.gap, s.dropWhile fun c => CodePoint.isBlank c)
    else if "//".toList.isPrefixOf s then .ok (.gap, (s.dropWhile (· ≠ '\n')).drop 1)
    else if "/*".toList.isPrefixOf s then
      match commentRest? (s.drop 2) with
      | some rest => .ok (.gap, rest)
      | none => .error (.openComment, none)
    else if "...".toList.isPrefixOf s then .ok (.token (.symbol "..."), s.drop 3)
    else if c = '@' then .ok (.token (.symbol "@"), rest)
    else if c = '.' ∧ rest.head?.any Char.isDigit then .ok number
    else if separators.contains c then .ok (.token (.symbol (String.singleton c)), rest)
    else if c = '"' ∨ c = '\'' then
      match literalRest c .plain rest with
      | .ok rest => .ok (.token .literal, rest)
      | .error none => .error (.openLiteral, none)
      | .error (some e) => .error (.badEscape, some e)
    else if c.isDigit then .ok number
    else if CodePoint.startsIdentifier c then
      let more (c : Char) : Bool := CodePoint.continuesIdentifier c
      .ok (.token (.ofWord (String.ofList (c :: rest.takeWhile more))), rest.dropWhile more)
    else
      match operators.find? fun op => op.toList.isPrefixOf s with
      | some op => .ok (.token (.symbol op), s.drop op.length)
      | none => .error (.strayCharacter, some c)

/-- Where the cutting stands. -/
structure LexState where
  /-- What is left. -/
  rest : List Char
  /-- The number of the line. Line breaks inside literals do not count. -/
  line : Nat := 1
  /-- Where the last token ended. -/
  tokenEnd : Nat := 0

/-- The tokens of what is left, in at most a number of steps. -/
def tokensFrom (source : List Char) : Nat → LexState → Except LexFault (List Token)
  | 0, _ => .ok []
  | n + 1, state =>
    if state.rest = [] then .ok []
    else
      match firstPiece state.rest with
      | .error (problem, shown) =>
        let character := shown.getD ((source.drop state.tokenEnd).head?.getD ' ')
        .error ⟨problem, character, state.line, lineAt source (source.length - state.rest.length)⟩
      | .ok (.gap, rest) =>
        let passed := state.rest.take (state.rest.length - rest.length)
        tokensFrom source n { state with rest, line := state.line + passed.count '\n' }
      | .ok (.token t, rest) =>
        (tokensFrom source n { state with rest, tokenEnd := source.length - rest.length }).map (t :: ·)

/-- The tokens of a source file. -/
def tokens (source : List Char) : Except LexFault (List Token) :=
  match unescape (source.length + 1) source with
  | .error c => .error ⟨.badNumber, c, 1, lineAt source 0⟩
  | .ok source => tokensFrom source (source.length + 1) { rest := source }

end Coupling.Java
