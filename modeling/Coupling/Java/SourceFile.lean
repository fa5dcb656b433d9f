import Coupling.Java.Grammar
import Coupling.Text.Front

/-!
# The package of a source file

A source file names its package and declares types, and a type may carry annotations. The question answered here is
whether one of its outermost types carries a given annotation, and if so what its package is. Where it is not known what a
file declares, the answer comes from its text alone: the annotation's name has to stand somewhere after an `@` or a dot, and
the package is that of the first line that looks like a package declaration.
-/

namespace Coupling.Java

/-- What a source file declares. -/
structure SourceFile where
  /-- Its package, if it names one. -/
  package : Option String := none
  /-- For each of its outermost types, the names of the annotations that it carries. -/
  types : List (List String) := []

/-! ### Declarations -/

/-- The names with dots between them at the front. -/
def namesWithDots : List Token → Option (List String × List Token)
  | .identifier n :: .symbol "." :: rest => (namesWithDots rest).map fun (ns, rest) => (n :: ns, rest)
  | .identifier n :: rest => some ([n], rest)
  | _ => none

/-- The qualified name at the front. -/
def qualifiedName? (ts : List Token) : Option (String × List Token) :=
  (namesWithDots ts).map fun (ns, rest) => (".".intercalate ns, rest)

/-- The modifiers and annotations at the front, in at most a number of steps: the names of the annotations are kept. -/
def annotations? : Nat → List Token → Option (List String × List Token)
  | 0, ts => some ([], ts)
  | n + 1, ts =>
    if beginsWith [.modifier] ts then annotations? n (ts.drop 1)
    else if Look.holds { options := Pattern.annotationStart } ts then do
      let (name, rest) ← qualifiedName? (ts.drop 1)
      let rest ← Rule.annotationArguments.take? rest
      let (names, rest) ← annotations? n rest
      some (name :: names, rest)
    else some ([], ts)

/-- The imports at the front are dropped, in at most a number of steps. -/
def dropImports : Nat → List Token → Option (List Token)
  | 0, ts => some ts
  | n + 1, ts =>
    if beginsWith [.oneOf ["import"]] ts then (Rule.importDeclaration.take? ts).bind (dropImports n) else some ts

/-- The annotations of the types up to the end, in at most a number of steps. -/
def types? : Nat → List Token → Option (List (List String))
  | 0, _ => none
  | _, [] => some []
  | n + 1, .symbol ";" :: rest => types? n rest
  | n + 1, ts => do
    let (names, rest) ← annotations? ts.length ts
    let rest ← Rule.bareDeclaration.take? rest
    let more ← types? n rest
    some (names :: more)

/-- The package declaration at the front, which may have annotations before it. -/
def package? (ts : List Token) : Option (Option String × List Token) :=
  match (Pattern.loop { options := Pattern.annotationStart } (.rule .annotationUse)).run Pattern.grammar
      (400 * (ts.length + 1)) ts with
  | some (.keyword "package" :: rest) => do
    let (name, rest) ← qualifiedName? rest
    match rest with
    | .symbol ";" :: rest => some (some name, rest)
    | _ => none
  | _ => some (none, ts)

/-- What the tokens of a source file declare; nothing if they do not follow the grammar. -/
def SourceFile.ofTokens? (ts : List Token) : Option SourceFile := do
  let (package, rest) ← package? ts
  let rest ← dropImports rest.length rest
  let types ← types? (rest.length + 1) rest
  some { package, types }

/-! ### From the text alone -/

/-- Whether a text holds another. -/
def holds (inner : Chars) : Chars → Bool
  | [] => inner.isEmpty
  | c :: rest => inner.isPrefixOf (c :: rest) || holds inner rest

/-- A blank character. -/
def isBlank (c : Char) : Bool := CodePoint.isBlank c

/-- The package of a declaration at the front, after blanks. -/
def declaredPackage? (s : Chars) : Option (Chars) :=
  let start := s.dropWhile isBlank
  let word := "package".toList
  let after := start.drop word.length
  let isNamed (c : Char) : Bool := CodePoint.isWord c || c = '.'
  let rest := after.dropWhile isBlank
  let name := rest.takeWhile isNamed
  let ending := (rest.dropWhile isNamed).dropWhile isBlank
  if word.isPrefixOf start ∧ after.head?.any isBlank ∧ name ≠ [] ∧ ending.head? = some ';' then some name else none

/-- The package of the first declaration that begins a line. -/
def packageByLine? : (lineStart : Bool) → Chars → Option (Chars)
  | _, [] => none
  | lineStart, c :: rest =>
    (if lineStart then declaredPackage? (c :: rest) else none).or (packageByLine? (c = '\n') rest)

/-- The package of a text in which an annotation is used. -/
def packageByText? (source marker : Chars) : Option (Chars) :=
  if holds ('@' :: marker) source || holds ('.' :: marker) source then
    some ((packageByLine? true source).getD [])
  else none

/-! ### From what is declared -/

/-- Why a source file cannot be read. -/
inductive SourceFault where
  /-- It cannot be cut into tokens. -/
  | lexical (fault : LexFault)
  /-- Its tokens do not follow the grammar. -/
  | grammatical

/-- The words for a fault; there are none for a fault of grammar. -/
def SourceFault.message : SourceFault → String
  | .lexical f => f.message
  | .grammatical => ""

/-- What a source file declares. -/
def SourceFile.parse (source : Chars) : Except SourceFault SourceFile := do
  let ts ← (tokens source).mapError .lexical
  match SourceFile.ofTokens? ts with
  | some file => .ok file
  | none => .error .grammatical

/-- Whether an annotation is meant by a name: by its own name, or by a name with more before it. -/
def isNamed (marker name : Chars) : Bool :=
  name = marker || ('.' :: marker).isSuffixOf name

/-- The package of a source file, if one of its outermost types carries an annotation; a file that names no package is in
the one without a name. -/
def SourceFile.packageOf? (file : SourceFile) (marker : Chars) : Option Chars :=
  if file.types.any fun names => names.any fun n => isNamed marker n.toList then some (file.package.elim [] String.toList)
  else none

end Coupling.Java
