import Coupling.Toml.Lexeme

/-!
# Configuration documents

A document is a row of statements, one to a line: a value under a key, the head of a table, or the head of one more table
of a list of tables. Keys may have several parts. No name is given a value twice, a table has at most one head, and
what is written in braces or brackets cannot be added to afterwards.
-/

namespace Coupling.Toml

/-- A key: the names that lead to a value. -/
abbrev Key := List String

/-! ### Building tables -/

/-- Changes the table that a key leads to. Missing tables on the way are created; where lists may be entered, the last
table of a list is taken. Nothing if something else stands in the way. -/
def changeAt (enterLists : Bool) (change : Entries → Option Entries) : Key → Entries → Option Entries
  | [], entries => change entries
  | k :: ks, entries =>
    match entries.lookup k with
    | none => (changeAt enterLists change ks []).map fun inner => entries.put k (.table inner)
    | some (.table inner) => (changeAt enterLists change ks inner).map fun inner => entries.put k (.table inner)
    | some (.list items) =>
      match enterLists, items.getLast? with
      | true, some (.table inner) =>
        (changeAt enterLists change ks inner).map fun inner =>
          entries.put k (.list (items.dropLast ++ [.table inner]))
      | _, _ => none
    | some _ => none

/-- Adds a value under a name that is still free. -/
def addNew (name : String) (v : Value) (entries : Entries) : Option Entries :=
  if (entries.lookup name).isSome then none else some (entries ++ [(name, v)])

/-- Adds an empty table to the list under a name, which may be new. -/
def addTable (name : String) (entries : Entries) : Option Entries :=
  match entries.lookup name with
  | none => some (entries ++ [(name, .list [.table []])])
  | some (.list items) => some (entries.put name (.list (items ++ [.table []])))
  | some _ => none

/-- Divides a key into the names before the last one, and the last one. -/
def splitKey (key : Key) : Key × String := (key.dropLast, key.getLast?.getD "")

/-- Lists and tables, which cannot be added to once they are written. -/
def Value.isContainer : Value → Bool
  | list _ => true
  | table _ => true
  | _ => false

/-! ### Keys and values -/

/-- A character of a key without quotes. -/
def isBare (c : Char) : Bool := c.isAlphanum || c = '-' || c = '_'

/-- Reads one name of a key. -/
def name? (s : Chars) : Option (String × Chars) :=
  match s.takeWhile isBare with
  | [] => lineString? s
  | cs => some (String.ofList cs, s.drop cs.length)

/-- Reads a key, in at most a number of steps. -/
def key? : Nat → Chars → Option (Key × Chars)
  | 0, _ => none
  | n + 1, s => do
    let (name, rest) ← name? s
    match rest.dropWhile isBlank with
    | '.' :: rest =>
      let (names, rest) ← key? n (rest.dropWhile isBlank)
      some (name :: names, rest)
    | rest => some ([name], rest)

/-- Drops blanks, line breaks and comments. -/
def skipLines : Nat → Chars → Option Chars
  | 0, s => some s
  | n + 1, s =>
    let rest := s.dropWhile fun c => isBlank c || c = '\n'
    match rest with
    | '#' :: _ => (skipComment rest).bind (skipLines n)
    | _ => some rest

/-- Why a document cannot be read. -/
inductive Fault where
  /-- It does not follow the format. -/
  | format
  /-- An integer has too many digits. -/
  | tooManyDigits
  deriving DecidableEq

/-- What a reader gives, which gives nothing if the format is not followed. -/
def expected {α : Type} (r : Option α) : Except Fault α := r.elim (.error .format) .ok

mutual

/-- Reads a value, in at most a number of steps. -/
def value : Nat → Chars → Except Fault (Value × Chars)
  | 0, _ => .error .format
  | n + 1, s =>
    match s with
    | '"' :: _ => (expected (string? s)).map fun (t, rest) => (.string t, rest)
    | '\'' :: _ => (expected (string? s)).map fun (t, rest) => (.string t, rest)
    | '[' :: rest => do
      let (items, rest) ← items n (← expected (skipLines rest.length rest))
      pure (.list items, rest)
    | '{' :: rest =>
      match rest.dropWhile isBlank with
      | '}' :: rest => pure (.table [], rest)
      | rest => (inline n [] [] rest).map fun (entries, rest) => (.table entries, rest)
    | _ =>
      match dropWord? "true" s, dropWord? "false" s with
      | some rest, _ => pure (.bool true, rest)
      | _, some rest => pure (.bool false, rest)
      | none, none => do
        match ← expected (scalar? s) with
        | (.int n, rest) => if isTooLong s rest then .error .tooManyDigits else pure (.int n, rest)
        | r => pure r

/-- Reads the items of a list, up to its closing bracket. -/
def items : Nat → Chars → Except Fault (List Value × Chars)
  | 0, _ => .error .format
  | n + 1, s =>
    match s with
    | ']' :: rest => pure ([], rest)
    | _ => do
      let (v, rest) ← value n s
      let rest ← expected (skipLines rest.length rest)
      match rest with
      | ']' :: rest => pure ([v], rest)
      | ',' :: rest =>
        let (vs, rest) ← items n (← expected (skipLines rest.length rest))
        pure (v :: vs, rest)
      | _ => .error .format

/-- Reads the entries of a table in braces, up to the closing brace. The keys of containers already read are closed. -/
def inline : Nat → Entries → (closed : List Key) → Chars → Except Fault (Entries × Chars)
  | 0, _, _, _ => .error .format
  | n + 1, entries, closed, s => do
    let (key, v, rest) ← keyValue n s
    if closed.any (·.isPrefixOf key) then .error .format
    let (parents, name) := splitKey key
    let entries ← expected (changeAt false (addNew name v) parents entries)
    match rest.dropWhile isBlank with
    | '}' :: rest => pure (entries, rest)
    | ',' :: rest => inline n entries (if v.isContainer then key :: closed else closed) (rest.dropWhile isBlank)
    | _ => .error .format

/-- Reads a key, an equals sign and a value. -/
def keyValue : Nat → Chars → Except Fault (Key × Value × Chars)
  | 0, _ => .error .format
  | n + 1, s => do
    let (key, rest) ← expected (key? (s.length + 1) s)
    let rest ← expected (dropWord? "=" rest)
    let (v, rest) ← value n (rest.dropWhile isBlank)
    pure (key, v, rest)

end

/-! ### Statements -/

/-- A document that is being read. -/
structure Document where
  /-- The values so far. -/
  entries : Entries := []
  /-- Where the keys of the current table begin. -/
  head : Key := []
  /-- The keys of tables that no head may open any more. -/
  opened : List Key := []
  /-- Keys that join these at the next head. -/
  pending : List Key := []
  /-- The keys of values in brackets or braces, below which nothing can be added. -/
  closed : List Key := []

namespace Document

/-- Whether a key lies in a value that is closed. -/
def isClosed (d : Document) (key : Key) : Bool := d.closed.any (·.isPrefixOf key)

/-- The keys of the tables that the names of a key before the last one open. -/
def innerKeys (head key : Key) : List Key := (List.range (key.length - 1)).map fun i => head ++ key.take (i + 1)

/-- Adds a value under a key of the current table. -/
def addValue (d : Document) (key : Key) (v : Value) : Option Document := do
  let inner := innerKeys d.head key
  if inner.any d.opened.contains then none
  let (parents, name) := splitKey key
  if d.isClosed (d.head ++ parents) then none
  let entries ← changeAt true (addNew name v) (d.head ++ parents) d.entries
  some { d with
    entries
    pending := inner ++ d.pending
    closed := if v.isContainer then (d.head ++ key) :: d.closed else d.closed }

/-- Makes the pending keys count. -/
def settle (d : Document) : Document := { d with opened := d.pending ++ d.opened, pending := [] }

/-- Opens the table with a key. -/
def openTable (d : Document) (key : Key) : Option Document := do
  if d.opened.contains key || d.isClosed key then none
  let entries ← changeAt true some key d.entries
  some { d with entries, head := key, opened := key :: d.opened }

/-- Opens one more table of the list with a key. What was said about the keys below it does not hold for the new
table. -/
def openItem (d : Document) (key : Key) : Option Document := do
  if d.isClosed key then none
  let (parents, name) := splitKey key
  let entries ← changeAt true (addTable name) parents d.entries
  some { d with
    entries
    head := key
    opened := key :: d.opened.filter fun k => !key.isPrefixOf k
    closed := d.closed.filter fun k => !key.isPrefixOf k }

/-- Reads the statement at the front of a line, if there is one, up to the blanks after it. -/
def statement (d : Document) (s : Chars) : Except Fault (Document × Chars) := do
  match s with
  | '[' :: '[' :: rest =>
    let (key, rest) ← expected (key? (rest.length + 1) (rest.dropWhile isBlank))
    let d ← expected (d.settle.openItem key)
    let rest ← expected (dropWord? "]]" rest)
    pure (d, rest.dropWhile isBlank)
  | '[' :: rest =>
    let (key, rest) ← expected (key? (rest.length + 1) (rest.dropWhile isBlank))
    let d ← expected (d.settle.openTable key)
    let rest ← expected (dropWord? "]" rest)
    pure (d, rest.dropWhile isBlank)
  | '#' :: _ => pure (d, s)
  | _ =>
    let (key, v, rest) ← keyValue (s.length + 2) s
    pure (← expected (d.addValue key v), rest.dropWhile isBlank)

/-- Reads statements up to the end, in at most a number of steps. -/
def statements : Nat → Document → Chars → Except Fault Document
  | 0, d, _ => pure d
  | n + 1, d, s =>
    match s.dropWhile isBlank with
    | [] => pure d
    | '\n' :: rest => statements n d rest
    | s => do
      let (d, rest) ← d.statement s
      match ← expected (skipComment rest) with
      | [] => pure d
      | '\n' :: rest => statements n d rest
      | _ => .error .format

end Document

/-- Every line break of two characters becomes one of one character. -/
def plainBreaks : Chars → Chars
  | [] => []
  | [c] => [c]
  | c :: d :: rest => if c = '\r' ∧ d = '\n' then '\n' :: plainBreaks rest else c :: plainBreaks (d :: rest)

/-- Reads a document. -/
def parse (text : Chars) : Except Fault Entries :=
  let s := plainBreaks text
  (Document.statements (s.length + 1) {} s).map Document.entries

end Coupling.Toml
