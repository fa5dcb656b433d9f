import Coupling.Text.Quoted

/-!
# Descriptors

A field descriptor is any number of `[`, one per array dimension, and then the letter of a primitive type or `L`, a
name without `;`, and `;`. A method descriptor is a list of field descriptors between parentheses and the descriptor of
the result, which may also be `V`. In type names the segments of a class name are divided by dots, and each array
dimension adds `[]` at the end.
-/

namespace Coupling.Descriptor

/-- The primitive types. -/
inductive Primitive where
  | byte
  | char
  | double
  | float
  | int
  | long
  | short
  | boolean
  deriving DecidableEq

/-- The type of a field, a parameter or a local variable. -/
inductive FieldType where
  /-- A primitive type. -/
  | primitive (p : Primitive)
  /-- A class or an interface, by its name with `/` between segments. -/
  | object (name : Text)
  /-- An array of the elements given. -/
  | array (element : FieldType)
  deriving DecidableEq

/-- The type of a method. -/
structure MethodType where
  /-- The types of the parameters, in order. -/
  parameters : List FieldType
  /-- The type of the result, if there is one. -/
  result : Option FieldType
  deriving DecidableEq

/-- Why a text is no descriptor. Each fault holds the text that was being read. -/
inductive Fault where
  /-- The text ends where a type should begin. -/
  | truncated (descriptor : Text)
  /-- A class name is empty or does not end. -/
  | badObject (descriptor : Text)
  /-- A type cannot begin with this. -/
  | unexpected (code : CodePoint) (descriptor : Text)
  /-- Something follows the type. -/
  | trailing (descriptor : Text)
  /-- There is no parameter list. -/
  | notMethod (descriptor : Text)
  /-- The parameter list does not end. -/
  | unterminated (descriptor : Text)
  deriving DecidableEq

/-- The words for a fault. -/
def Fault.message : Fault → String
  | .truncated d => "truncated descriptor " ++ Quoted.text d
  | .badObject d => "bad object type in " ++ Quoted.text d
  | .unexpected c d => "unexpected " ++ Quoted.text [c] ++ " in descriptor " ++ Quoted.text d
  | .trailing d => "trailing data in descriptor " ++ Quoted.text d
  | .notMethod d => "bad method descriptor " ++ Quoted.text d
  | .unterminated d => "unterminated parameters in " ++ Quoted.text d

namespace Primitive

/-- All primitive types. -/
def all : List Primitive := [byte, char, double, float, int, long, short, boolean]

/-- The letter of a primitive type. -/
def code : Primitive → Char
  | byte => 'B'
  | char => 'C'
  | double => 'D'
  | float => 'F'
  | int => 'I'
  | long => 'J'
  | short => 'S'
  | boolean => 'Z'

/-- The keyword of a primitive type. -/
def name : Primitive → String
  | byte => "byte"
  | char => "char"
  | double => "double"
  | float => "float"
  | int => "int"
  | long => "long"
  | short => "short"
  | boolean => "boolean"

/-- The primitive type of a letter. -/
def ofCode? (c : CodePoint) : Option Primitive := all.find? fun p => (p.code : CodePoint) = c

end Primitive

/-- The name of the result type of a method without a result. -/
def void : Text := "void"

/-- A class name with dots between its segments. -/
def dotted (name : Text) : Text := name.map fun c : CodePoint => if c = '/' then '.' else c

/-- The name of a type. -/
def FieldType.name : FieldType → Text
  | .primitive p => p.name
  | .object n => dotted n
  | .array e => e.name ++ "[]"

/-- The name of the result type. -/
def MethodType.resultName (m : MethodType) : Text := m.result.elim void FieldType.name

/-- The descriptor of a type. -/
def FieldType.encode : FieldType → Text
  | .primitive p => [(p.code : CodePoint)]
  | .object n => ('L' : CodePoint) :: (n ++ ";")
  | .array e => ('[' : CodePoint) :: e.encode

/-- The descriptor of a method type. -/
def MethodType.encode (m : MethodType) : Text :=
  ('(' : CodePoint) :: (m.parameters.flatMap FieldType.encode ++
    ((')' : CodePoint) :: m.result.elim "V" FieldType.encode))

/-- Reads the type at the front of a text, which is a part of the descriptor `whole`, and gives what follows it. -/
def read (whole : Text) : Text → Except Fault (FieldType × Text)
  | [] => .error (.truncated whole)
  | c :: rest =>
    if c = '[' then
      match read whole rest with
      | .ok (e, rest') => .ok (.array e, rest')
      | .error f => .error f
    else
      match Primitive.ofCode? c with
      | some p => .ok (.primitive p, rest)
      | none =>
        if c = 'L' then
          match rest.takeWhile (· ≠ (';' : CodePoint)), rest.dropWhile (· ≠ (';' : CodePoint)) with
          | n :: name, _ :: rest' => .ok (.object (n :: name), rest')
          | _, _ => .error (.badObject whole)
        else .error (.unexpected c whole)

theorem read_length {whole s r : Text} {t : FieldType} (h : read whole s = .ok (t, r)) : r.length < s.length := by
  induction s generalizing t with
  | nil => cases h
  | cons c s ih =>
    rw [read] at h
    split at h
    · split at h
      · next heq =>
        simp only [Except.ok.injEq, Prod.mk.injEq] at h
        have := ih (h.2 ▸ heq)
        simp only [List.length_cons]
        omega
      · cases h
    · split at h
      · simp only [Except.ok.injEq, Prod.mk.injEq] at h
        simp [h.2]
      · split at h
        · split at h
          · next heq =>
            simp only [Except.ok.injEq, Prod.mk.injEq] at h
            have hle := (List.dropWhile_suffix (l := s) (· ≠ (';' : CodePoint))).length_le
            rw [heq] at hle
            rw [← h.2]
            simp only [List.length_cons] at hle ⊢
            omega
          · cases h
        · cases h

/-- Reads a type that makes up a whole descriptor. -/
def fieldType (descriptor : Text) : Except Fault FieldType := do
  let (t, rest) ← read descriptor descriptor
  if rest = [] then pure t else throw (.trailing descriptor)

/-- Reads the type that begins at a position, and gives the position after it. -/
def fieldTypeAt (descriptor : Text) (position : Nat) : Except Fault (FieldType × Nat) := do
  let (t, rest) ← read descriptor (descriptor.drop position)
  pure (t, descriptor.length - rest.length)

/-- Reads types up to the closing parenthesis, and gives what follows it. -/
def parameters (whole : Text) (s : Text) : Except Fault (List FieldType × Text) :=
  match s with
  | [] => .error (.unterminated whole)
  | c :: rest =>
    if c = ')' then .ok ([], rest)
    else
      match h : read whole (c :: rest) with
      | .error f => .error f
      | .ok (t, rest') =>
        have := read_length h
        match parameters whole rest' with
        | .ok (ts, rest'') => .ok (t :: ts, rest'')
        | .error f => .error f
termination_by s.length
decreasing_by exact read_length h

/-- Reads a method descriptor. The result is read as a descriptor of its own. -/
def methodType (descriptor : Text) : Except Fault MethodType :=
  match descriptor with
  | [] => .error (.notMethod descriptor)
  | c :: rest =>
    if c = '(' then do
      let (ps, result) ← parameters descriptor rest
      if result = "V" then pure ⟨ps, none⟩ else pure ⟨ps, some (← fieldType result)⟩
    else .error (.notMethod descriptor)

/-- The name of the class that a constant-pool entry stands for: a descriptor if it is an array, and otherwise the bare
name of the class. -/
def entryName (name : Text) : Except Fault Text :=
  if name.head? = some '[' then FieldType.name <$> fieldType name else .ok (dotted name)

end Coupling.Descriptor
