import Coupling.Text.Hex
import Coupling.Xml.Encoding
import Coupling.Xml.NameTable

/-!
# XML documents

Reads well-formed documents with namespaces. Of a document its elements are kept, each by its local name, with the text
that stands before its first child. Comments and processing instructions leave no trace: the text goes on after them.
Entities that the document itself declares are put in place of their references, and the text of an entity is well formed
by itself. Line breaks of every kind become a single character.

Declarations of elements, attributes and notations are passed over, and so is everything outside the document.
-/

namespace Coupling.Xml

/-- An element. -/
inductive Element where
  /-- An element with its local name, the text before its first child if there is any, and its children. -/
  | mk (name : Chars) (text : Option Chars) (children : List Element)

namespace Element

/-- The local name. -/
def name : Element → Chars
  | mk name _ _ => name

/-- The text before the first child, if there is any. -/
def text : Element → Option Chars
  | mk _ text _ => text

/-- The children. -/
def children : Element → List Element
  | mk _ _ children => children

/-- The children with a name. -/
def named (e : Element) (name : String) : List Element := e.children.filter fun c => c.name = name.toList

end Element

/-! ### Characters and names -/

/-- A character that a document may hold. -/
def isAllowed (c : Char) : Bool := (0x20 ≤ c.toNat || isBlank c) && c.toNat ≠ 0xFFFE && c.toNat ≠ 0xFFFF

/-- The kind of a character in the table of names: whether it may begin a name, or go on, or neither. -/
def nameKind (c : Char) : Nat :=
  NameTable.runs.foldl (fun k chunk => chunk.foldl (fun k run => if run / 4 ≤ c.toNat then run % 4 else k) k) 0

/-- May begin a name. A colon divides a name and is no part of either side. -/
def startsName (c : Char) : Bool := if c.toNat < 0x80 then c.isAlpha || c = '_' else nameKind c = 1

/-- May stand inside a name. -/
def continuesName (c : Char) : Bool :=
  if c.toNat < 0x80 then c.isAlphanum || c = '_' || c = '-' || c = '.' else nameKind c ≠ 0

/-- Reads a name without a colon. -/
def plainName? (s : Chars) : Option (Chars × Chars) :=
  if s.head?.any startsName then some (s.takeWhile continuesName, s.dropWhile continuesName) else none

/-- A name with the part before its colon, if it has one. -/
structure Name where
  /-- What stands before the colon. -/
  space : Option Chars := none
  /-- What stands after the colon, or the whole name. -/
  base : Chars
  deriving DecidableEq

/-- Reads a name that may have a colon. -/
def name? (s : Chars) : Option (Name × Chars) := do
  let (first, rest) ← plainName? s
  match rest with
  | ':' :: rest =>
    let (second, rest) ← plainName? rest
    if rest.head? = some ':' then none else some (⟨some first, second⟩, rest)
  | _ => some (⟨none, first⟩, rest)

/-! ### Comments, instructions and references -/

/-- What follows a comment, after its opening. Two hyphens stand only at its end. -/
def comment? (s : Chars) : Option Chars := do
  let (body, rest) ← splitAt? "--" s
  if body.all isAllowed then dropWord? ">" rest else none

/-- What follows a processing instruction, after its opening. -/
def instruction? (s : Chars) : Option Chars := do
  let (target, rest) ← plainName? s
  if (String.ofList target).toLower = "xml" then none
  let (body, after) ← splitAt? "?>" rest
  if body.all isAllowed ∧ (body = [] ∨ body.head?.any isBlank) then some after else none

/-- What a document declares. -/
structure Entities where
  /-- The entities by name, each with the text that it stands for; one outside the document has none. -/
  texts : List (Chars × Option Chars) := []
  /-- Whether more may be declared outside the document, and it does not stand alone. -/
  isOpen : Bool := false

/-- The characters that have a name in every document. -/
def predefined (name : Chars) : Option Char :=
  match String.ofList name with
  | "lt" => some '<'
  | "gt" => some '>'
  | "amp" => some '&'
  | "apos" => some '\''
  | "quot" => some '"'
  | _ => none

/-- The character with a number in a base. -/
def numbered? (base : Nat) (digits : Chars) : Option Char := do
  let values ← digits.mapM Hex.value?
  if values = [] ∨ values.any (base ≤ ·) then none
  let n := values.foldl (fun n d => base * n + d) 0
  if h : n.isValidChar then
    let c := Char.ofNatAux n h
    if isAllowed c then some c else none
  else none

/-- A reference. -/
inductive Reference where
  /-- To a character by its number. -/
  | character (c : Char)
  /-- To something by its name. -/
  | named (name : Chars)

/-- Reads a reference after its `&`. -/
def reference? : Chars → Option (Reference × Chars)
  | '#' :: 'x' :: rest => do
    let (digits, after) ← splitAt? ";" rest
    some (.character (← numbered? 16 digits), after)
  | '#' :: rest => do
    let (digits, after) ← splitAt? ";" rest
    some (.character (← numbered? 10 digits), after)
  | s => do
    let (name, rest) ← plainName? s
    some (.named name, ← dropWord? ";" rest)

/-! ### Tags -/

/-- Reads the value of an attribute up to a quote, or up to the end of the text of an entity, in at most a number of steps.
Blanks become spaces. An entity that is not known is left out if it may be declared outside the document. -/
def attributeValue? (entities : Entities) (quote : Option Char) : Nat → Chars → Option (Chars × Chars)
  | 0, _ => none
  | _ + 1, [] => if quote.isNone then some ([], []) else none
  | n + 1, c :: rest =>
    let next (cs rest : Chars) : Option (Chars × Chars) :=
      (attributeValue? entities quote n rest).map fun (value, after) => (cs ++ value, after)
    if some c = quote then some ([], rest)
    else if c = '<' ∨ !isAllowed c then none
    else if c = '&' then do
      match ← reference? rest with
      | (.character c, rest) => next [c] rest
      | (.named name, rest) =>
        match predefined name, entities.texts.lookup name with
        | some c, _ => next [c] rest
        | none, some (some text) =>
          let (value, _) ← attributeValue? entities none n text
          next value rest
        | none, some none => none
        | none, none => if entities.isOpen then next [] rest else none
    else next [if isBlank c then ' ' else c] rest

/-- Attributes with their values. -/
abbrev Attributes := List (Name × Chars)

/-- Reads the attributes of a tag, each after a blank, given how many steps a value may take. -/
def attributes? (entities : Entities) (steps : Nat) : Nat → Chars → Option (Attributes × Chars)
  | 0, _ => none
  | n + 1, s =>
    let rest := s.dropWhile isBlank
    if rest.head?.all fun c => c = '>' || c = '/' then some ([], rest)
    else if rest.length = s.length then none
    else do
      let (name, rest) ← name? rest
      let rest ← dropWord? "=" (rest.dropWhile isBlank)
      match rest.dropWhile isBlank with
      | quote :: rest =>
        if quote ≠ '"' ∧ quote ≠ '\'' then none
        let (value, rest) ← attributeValue? entities (some quote) steps rest
        let (more, rest) ← attributes? entities steps n rest
        some ((name, value) :: more, rest)
      | [] => none

/-! ### Namespaces -/

/-- The namespaces that names before a colon are bound to. -/
abbrev Scope := List (Chars × Chars)

/-- The namespace of the names that begin with `xml`. -/
def xmlSpace : Chars := "http://www.w3.org/XML/1998/namespace".toList

/-- The namespace of the attributes that bind names. -/
def xmlnsSpace : Chars := "http://www.w3.org/2000/xmlns/".toList

/-- The names that attributes bind; the one without a colon binds nothing that has a colon. -/
def bindings (attributes : Attributes) : Scope :=
  attributes.filterMap fun (n, value) => if n.space = some "xmlns".toList then some (n.base, value) else none

/-- Whether a text may be a namespace. A closing brace stands between namespaces and names. -/
def isSoundSpace (value : Chars) : Bool := value ≠ xmlnsSpace && !value.contains '}'

/-- Whether a name may be bound to a namespace. The name `xml` and its namespace belong together. -/
def isSoundBinding (name value : Chars) : Bool :=
  value ≠ [] && name ≠ "xmlns".toList && isSoundSpace value && (name = "xml".toList) = (value = xmlSpace)

/-- The namespaces that are in force in an element with some attributes, if these are sound: no attribute comes twice, by
its name or by its namespace, and every name before a colon is bound. -/
def scopeWith? (scope : Scope) (attributes : Attributes) : Option Scope :=
  let bound := bindings attributes
  let scope := bound ++ scope
  let isDefault (n : Name) : Bool := n.space.isNone && n.base = "xmlns".toList
  let others := attributes.filter fun (n, _) => n.space ≠ some "xmlns".toList && !isDefault n
  let spaced := others.filterMap fun (n, _) => n.space.map fun space => ((scope.lookup space), n.base)
  let names := attributes.map Prod.fst
  if names.eraseDups.length = names.length && spaced.eraseDups.length = spaced.length &&
      spaced.all (·.1.isSome) && bound.all (fun (name, value) => isSoundBinding name value) &&
      attributes.all (fun (n, value) => !isDefault n || (isSoundSpace value && value ≠ xmlSpace)) then
    some scope
  else none

/-- Whether the part of a name before its colon is bound. -/
def isBound (scope : Scope) (n : Name) : Bool := n.space.all fun space => (scope.lookup space).isSome

/-! ### Elements -/

/-- A part of the content of an element. -/
inductive Part where
  /-- A character. -/
  | character (c : Char)
  /-- A child. -/
  | child (e : Element)

/-- The child of a part that is one. -/
def Part.child? : Part → Option Element
  | .child e => some e
  | .character _ => none

/-- The characters in front of the first child. -/
def leadingText : List Part → Chars
  | .character c :: rest => c :: leadingText rest
  | _ => []

/-- The element with some content. -/
def Element.ofParts (name : Chars) (parts : List Part) : Element :=
  let text := leadingText parts
  .mk name (if text = [] then none else some text) (parts.filterMap Part.child?)

mutual

/-- Reads the content of an element up to its closing tag, or of an entity up to its end, in at most a number of steps. -/
def content? (entities : Entities) (scope : Scope) : Nat → Chars → Option (List Part × Chars)
  | 0, _ => none
  | _ + 1, [] => some ([], [])
  | n + 1, c :: rest =>
    let next (parts : List Part) (rest : Chars) : Option (List Part × Chars) :=
      (content? entities scope n rest).map fun (more, after) => (parts ++ more, after)
    if c = '<' then
      if rest.head? = some '/' then some ([], c :: rest)
      else if let some after := dropWord? "!--" rest then (comment? after).bind (next [])
      else if let some after := dropWord? "![CDATA[" rest then do
        let (body, after) ← splitAt? "]]>" after
        if body.all isAllowed then next (body.map .character) after else none
      else if let some after := dropWord? "?" rest then (instruction? after).bind (next [])
      else do
        let (child, after) ← element? entities scope n (c :: rest)
        next [.child child] after
    else if c = '&' then do
      match ← reference? rest with
      | (.character c, after) => next [.character c] after
      | (.named name, after) =>
        match predefined name, entities.texts.lookup name with
        | some c, _ => next [.character c] after
        | none, some (some text) =>
          let (parts, unread) ← content? entities scope n text
          if unread = [] then next parts after else none
        | none, _ => none
    else if (dropWord? "]]>" (c :: rest)).isSome ∨ !isAllowed c then none
    else next [.character c] rest

/-- Reads an element, in at most a number of steps. -/
def element? (entities : Entities) (scope : Scope) : Nat → Chars → Option (Element × Chars)
  | 0, _ => none
  | n + 1, s => do
    let (name, rest) ← name? (← dropWord? "<" s)
    let (attributes, rest) ← attributes? entities n (rest.length + 1) rest
    let scope ← scopeWith? scope attributes
    if !isBound scope name then none
    match dropWord? "/>" rest with
    | some after => some (.ofParts name.base [], after)
    | none =>
      let (parts, rest) ← content? entities scope n (← dropWord? ">" rest)
      let (closing, rest) ← name? (← dropWord? "</" rest)
      if closing ≠ name then none
      some (.ofParts name.base parts, ← dropWord? ">" (rest.dropWhile isBlank))

end

/-! ### Document types -/

/-- Reads a text between quotes. -/
def quoted? (s : Chars) : Option (Chars × Chars) :=
  match s with
  | '"' :: rest => splitAt? "\"" rest
  | '\'' :: rest => splitAt? "'" rest
  | _ => none

/-- What follows a declaration inside a document type, which ends at the first `>` outside quotes. -/
def declarationRest? : Nat → Chars → Option Chars
  | 0, _ => none
  | _, [] => none
  | n + 1, c :: rest =>
    if c = '>' then some rest
    else if c = '"' ∨ c = '\'' then (quoted? (c :: rest)).bind fun (_, after) => declarationRest? n after
    else if isAllowed c then declarationRest? n rest
    else none

/-- The text of an entity as it is declared, in at most a number of steps: references by number are replaced, and those by
name stay. -/
def entityText? : Nat → Chars → Option Chars
  | 0, _ => none
  | _ + 1, [] => some []
  | n + 1, c :: rest =>
    if c = '%' ∨ !isAllowed c then none
    else if c = '&' then do
      match ← reference? rest with
      | (.character c, rest) => (entityText? n rest).map (c :: ·)
      | (.named name, rest) => (entityText? n rest).map fun text => '&' :: name ++ ';' :: text
    else (entityText? n rest).map (c :: ·)

/-- Reads the declaration of an entity after its opening, up to the end. One outside the document has no text, and one that
is only for use in declarations is left out. -/
def entity? (s : Chars) : Option (List (Chars × Option Chars) × Chars) :=
  match s.dropWhile isBlank with
  | '%' :: rest => (declarationRest? (rest.length + 1) rest).map ([], ·)
  | s => do
    let (name, rest) ← plainName? s
    if !(rest.head?.any isBlank) then none
    let rest := rest.dropWhile isBlank
    match quoted? rest with
    | none =>
      let rest ← (dropWord? "SYSTEM" rest).or (dropWord? "PUBLIC" rest)
      (declarationRest? (rest.length + 1) rest).map ([(name, none)], ·)
    | some (text, rest) =>
      let text := Utf8.plainBreaks (← entityText? (text.length + 1) text)
      some ([(name, some text)], ← dropWord? ">" (rest.dropWhile isBlank))

/-- What follows the word that a declaration begins with. -/
def declared? (s : Chars) : Option Chars :=
  (["ENTITY", "ELEMENT", "ATTLIST", "NOTATION"].findSome? fun word => dropWord? word s).filter fun rest =>
    rest.head?.any isBlank

/-- Reads the declarations inside a document type up to the closing bracket, in at most a number of steps. Of two
declarations of an entity the first one counts. After a reference to declarations elsewhere entities are left out, unless
the document stands alone. -/
def declarations? (isAlone : Bool) : Nat → Entities → Chars → Option (Entities × Chars)
  | 0, _, _ => none
  | n + 1, entities, s =>
    let s := s.dropWhile isBlank
    if let some rest := dropWord? "]" s then some (entities, rest)
    else if let some rest := dropWord? "<!--" s then (comment? rest).bind (declarations? isAlone n entities)
    else if let some rest := dropWord? "<?" s then (instruction? rest).bind (declarations? isAlone n entities)
    else if let some rest := dropWord? "%" s then do
      let (_, rest) ← plainName? rest
      declarations? isAlone n { entities with isOpen := !isAlone } (← dropWord? ";" rest)
    else do
      let rest ← dropWord? "<!" s
      let inner ← declared? rest
      if (dropWord? "ENTITY" rest).isSome ∧ !entities.isOpen then
        let (found, after) ← entity? inner
        declarations? isAlone n { entities with texts := entities.texts ++ found } after
      else declarations? isAlone n entities (← declarationRest? (inner.length + 1) inner)

/-- Reads a document type after its opening. -/
def documentType? (isAlone : Bool) (s : Chars) : Option (Entities × Chars) := do
  if !(s.head?.any isBlank) then none
  let (_, rest) ← name? (s.dropWhile isBlank)
  let rest := rest.dropWhile isBlank
  let (isOutside, rest) ←
    match dropWord? "SYSTEM" rest, dropWord? "PUBLIC" rest with
    | some rest, _ => (quoted? (rest.dropWhile isBlank)).map fun (_, rest) => (true, rest)
    | none, some rest => do
      let (_, rest) ← quoted? (rest.dropWhile isBlank)
      (quoted? (rest.dropWhile isBlank)).map fun (_, rest) => (true, rest)
    | none, none => some (false, rest)
  let isOpen := isOutside && !isAlone
  match dropWord? "[" (rest.dropWhile isBlank) with
  | some inner =>
    let (entities, rest) ← declarations? isAlone (inner.length + 1) {} inner
    some ({ entities with isOpen := entities.isOpen || isOpen }, ← dropWord? ">" (rest.dropWhile isBlank))
  | none => some ({ isOpen }, ← dropWord? ">" (rest.dropWhile isBlank))

/-! ### Documents -/

/-- Drops blanks, comments and processing instructions, in at most a number of steps. -/
def skipMisc? : Nat → Chars → Option Chars
  | 0, _ => none
  | n + 1, s =>
    let s := s.dropWhile isBlank
    if let some rest := dropWord? "<!--" s then (comment? rest).bind (skipMisc? n)
    else if let some rest := dropWord? "<?" s then (instruction? rest).bind (skipMisc? n)
    else some s

/-- Reads a document after its declaration. Entities within entities make more steps necessary than there are
characters. -/
def root? (isAlone : Bool) (s : Chars) : Option Element := do
  let rest ← skipMisc? (s.length + 1) s
  let (entities, rest) ←
    match dropWord? "<!DOCTYPE" rest with
    | some rest => documentType? isAlone rest
    | none => some ({}, rest)
  let rest ← skipMisc? (rest.length + 1) rest
  let steps := 2 * (entities.texts.length + 1) * (s.length + 1)
  let (root, rest) ← element? entities [("xml".toList, xmlSpace)] steps rest
  if (← skipMisc? (rest.length + 1) rest) = [] then some root else none

/-- Reads a document. -/
def parse (bytes : List UInt8) : Except Fault Element := do
  let (declaration, s) ← characters bytes
  match root? declaration.isAlone (Utf8.plainBreaks s) with
  | some root => .ok root
  | none => .error .malformed

end Coupling.Xml
