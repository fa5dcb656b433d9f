import Coupling.ClassFile.Fault
import Coupling.Proofs.Descriptors
import Coupling.Proofs.TypeNames
import Mathlib.Data.List.Forall2

/-!
# The grammar of descriptors

A field descriptor is a number of `[` and then either the letter of a primitive type or `L`, a path that is not empty and
holds no `;`, and `;`. A method descriptor is a row of field descriptors between parentheses, and then `V` or one more
field descriptor. The readers accept exactly these texts and give the names of the types in them. A path may hold
parentheses, brackets and letters of primitive types, so no text is split by searching for these; still there is only one
way to split it.
-/

namespace Coupling.Descriptor

/-! ### The grammar -/

/-- The letters of the primitive types, and their names. -/
def primitives : List (Char × String) :=
  [('B', "byte"), ('C', "char"), ('D', "double"), ('F', "float"), ('I', "int"), ('J', "long"), ('S', "short"),
    ('Z', "boolean")]

/-- A field descriptor without `[`, and the name of its type. -/
inductive IsElement : Text → Text → Prop where
  /-- A primitive type. -/
  | primitive {letter : Char} {name : String} : (letter, name) ∈ primitives → IsElement [(letter : CodePoint)] name
  /-- A class or an interface. In its name each `/` is a dot. -/
  | object {path : Text} : path ≠ [] → (';' : CodePoint) ∉ path →
    IsElement (('L' : CodePoint) :: (path ++ ";")) (path.map fun c : CodePoint => if c = '/' then '.' else c)

/-- A field descriptor, and the name of its type. -/
def IsField (s name : Text) : Prop :=
  ∃ (dimensions : Nat) (element elementName : Text), IsElement element elementName ∧
    s = List.replicate dimensions ('[' : CodePoint) ++ element ∧ name = elementName ++ TypeName.brackets dimensions

/-- A method descriptor, made of the field descriptors of its parameters and the descriptor of its result, and the names
of all these types. -/
structure IsMethod (s : Text) (fields : List Text) (result : Text) (names : List Text) (resultName : Text) : Prop where
  text : s = ('(' : CodePoint) :: (fields.flatten ++ (')' : CodePoint) :: result)
  parameters : List.Forall₂ IsField fields names
  result : result = Text.ofString "V" ∧ resultName = Text.ofString "void" ∨ IsField result resultName

/-- One round of the loop over the parameters: unless their list ends, a type is read from what is left. -/
def Round (whole left left' : Text) : Prop :=
  left.head? ≠ some (')' : CodePoint) ∧ ∃ t, read whole left = .ok (t, left')

/-! ### Field descriptors -/

theorem mem_primitives {letter : Char} {name : String} :
    (letter, name) ∈ primitives ↔ ∃ p : Primitive, letter = p.code ∧ name = p.name := by
  constructor
  · intro h
    have hall : primitives = Primitive.all.map fun p => (p.code, p.name) := rfl
    rw [hall, List.mem_map] at h
    obtain ⟨p, -, hp⟩ := h
    cases hp
    exact ⟨p, rfl, rfl⟩
  · rintro ⟨p, rfl, rfl⟩
    cases p <;> simp [primitives, Primitive.code, Primitive.name]

theorem exists_type_of_isElement {s name : Text} (h : IsElement s name) :
    ∃ t : FieldType, t.WellFormed ∧ s = t.encode ∧ name = t.name := by
  cases h with
  | primitive hmem =>
    obtain ⟨p, rfl, rfl⟩ := mem_primitives.1 hmem
    exact ⟨.primitive p, trivial, rfl, rfl⟩
  | @object path hne hpath => exact ⟨.object path, ⟨hne, hpath⟩, rfl, rfl⟩

/-- The field descriptors are the descriptors of types. -/
theorem isField_iff {s name : Text} : IsField s name ↔ ∃ t : FieldType, t.WellFormed ∧ s = t.encode ∧ name = t.name := by
  constructor
  · rintro ⟨n, element, elementName, helement, rfl, rfl⟩
    induction n with
    | zero =>
      obtain ⟨t, ht, rfl, rfl⟩ := exists_type_of_isElement helement
      exact ⟨t, ht, rfl, List.append_nil _⟩
    | succ n ih =>
      obtain ⟨t, ht, hcode, hname⟩ := ih
      refine ⟨.array t, ht, ?_, ?_⟩
      · rw [List.replicate_succ, List.cons_append, hcode, FieldType.encode]
      · rw [TypeName.brackets_succ, ← List.append_assoc, hname, FieldType.name]
  · rintro ⟨t, ht, rfl, rfl⟩
    induction t with
    | primitive p =>
      have hmem : (p.code, p.name) ∈ primitives := mem_primitives.2 ⟨p, rfl, rfl⟩
      exact ⟨0, _, _, .primitive hmem, rfl, (List.append_nil _).symm⟩
    | object path => exact ⟨0, _, _, .object ht.1 ht.2, rfl, (List.append_nil _).symm⟩
    | array t ih =>
      obtain ⟨n, element, elementName, helement, hcode, hname⟩ := ih ht
      refine ⟨n + 1, element, elementName, helement, ?_, ?_⟩
      · rw [FieldType.encode, hcode, List.replicate_succ, List.cons_append]
      · rw [FieldType.name, hname, TypeName.brackets_succ, List.append_assoc]

theorem fieldName_eq_ok {s name : Text} : (fieldType s).map FieldType.name = .ok name ↔ IsField s name := by
  rw [map_eq_ok, isField_iff]
  constructor
  · rintro ⟨t, ht, rfl⟩
    obtain ⟨hwf, hcode⟩ := fieldType_eq_ok.1 ht
    exact ⟨t, hwf, hcode, rfl⟩
  · rintro ⟨t, hwf, hcode, rfl⟩
    exact ⟨t, fieldType_eq_ok.2 ⟨hwf, hcode⟩, rfl⟩

/-! ### Method descriptors -/

theorem forall₂_isField_iff {fields names : List Text} : List.Forall₂ IsField fields names ↔
    ∃ ts : List FieldType, (∀ t ∈ ts, t.WellFormed) ∧ fields = ts.map FieldType.encode ∧ names = ts.map FieldType.name := by
  constructor
  · intro h
    induction h with
    | nil => exact ⟨[], by simp, rfl, rfl⟩
    | cons hfield _ ih =>
      obtain ⟨t, ht, rfl, rfl⟩ := isField_iff.1 hfield
      obtain ⟨ts, hts, rfl, rfl⟩ := ih
      exact ⟨t :: ts, List.forall_mem_cons.2 ⟨ht, hts⟩, rfl, rfl⟩
  · rintro ⟨ts, hts, rfl, rfl⟩
    induction ts with
    | nil => exact .nil
    | cons t ts ih =>
      obtain ⟨ht, hts⟩ := List.forall_mem_cons.1 hts
      exact .cons (isField_iff.2 ⟨t, ht, rfl, rfl⟩) (ih hts)

theorem isResult_iff {result resultName : Text} :
    result = Text.ofString "V" ∧ resultName = Text.ofString "void" ∨ IsField result resultName ↔
      ∃ r : Option FieldType, (∀ t ∈ r, t.WellFormed) ∧ result = r.elim (Text.ofString "V") FieldType.encode ∧
        resultName = r.elim void FieldType.name := by
  constructor
  · rintro (⟨rfl, rfl⟩ | h)
    · exact ⟨none, by simp, rfl, rfl⟩
    · obtain ⟨t, ht, rfl, rfl⟩ := isField_iff.1 h
      exact ⟨some t, by simpa using ht, rfl, rfl⟩
  · rintro ⟨r, hr, rfl, rfl⟩
    cases r with
    | none => exact .inl ⟨rfl, rfl⟩
    | some t => exact .inr (isField_iff.2 ⟨t, hr t rfl, rfl, rfl⟩)

/-- A method descriptor is split as the descriptor of a method type. -/
theorem isMethod_iff {s result resultName : Text} {fields names : List Text} :
    IsMethod s fields result names resultName ↔ ∃ m : MethodType, methodType s = .ok m ∧
      fields = m.parameters.map FieldType.encode ∧ result = m.result.elim (Text.ofString "V") FieldType.encode ∧
      names = m.parameters.map FieldType.name ∧ resultName = m.resultName := by
  constructor
  · rintro ⟨rfl, hfields, hresult⟩
    obtain ⟨ts, hts, rfl, rfl⟩ := forall₂_isField_iff.1 hfields
    obtain ⟨r, hr, rfl, rfl⟩ := isResult_iff.1 hresult
    exact ⟨⟨ts, r⟩, methodType_eq_ok.2 ⟨⟨hts, hr⟩, rfl⟩, rfl, rfl, rfl, rfl⟩
  · rintro ⟨m, hm, rfl, rfl, rfl, rfl⟩
    obtain ⟨hwf, rfl⟩ := methodType_eq_ok.1 hm
    exact ⟨rfl, forall₂_isField_iff.2 ⟨m.parameters, hwf.parameters, rfl, rfl⟩,
      isResult_iff.2 ⟨m.result, hwf.result, rfl, rfl⟩⟩

theorem methodNames_eq_ok {s resultName : Text} {names : List Text} :
    (methodType s).map (fun m => (m.resultName, m.parameters.map FieldType.name)) = .ok (resultName, names) ↔
      ∃ fields result, IsMethod s fields result names resultName := by
  rw [map_eq_ok]
  constructor
  · rintro ⟨m, hm, hnames⟩
    cases hnames
    exact ⟨_, _, isMethod_iff.2 ⟨m, hm, rfl, rfl, rfl, rfl⟩⟩
  · rintro ⟨fields, result, h⟩
    obtain ⟨m, hm, -, -, rfl, rfl⟩ := isMethod_iff.1 h
    exact ⟨m, hm, rfl⟩

/-- A text is split in one way only. -/
theorem IsMethod.unique {s result result' resultName resultName' : Text} {fields fields' names names' : List Text}
    (h : IsMethod s fields result names resultName) (h' : IsMethod s fields' result' names' resultName') :
    fields = fields' ∧ result = result' ∧ names = names' ∧ resultName = resultName' := by
  obtain ⟨m, hm, rfl, rfl, rfl, rfl⟩ := isMethod_iff.1 h
  obtain ⟨m', hm', rfl, rfl, rfl, rfl⟩ := isMethod_iff.1 h'
  rw [hm] at hm'
  cases hm'
  exact ⟨rfl, rfl, rfl, rfl⟩

/-- After a round the parameters are read from what it leaves. -/
theorem parameters_of_round {whole left left' : Text} (h : Round whole left left') :
    ∃ t, parameters whole left = (parameters whole left').map fun p => (t :: p.1, p.2) := by
  obtain ⟨hhead, t, hread⟩ := h
  refine ⟨t, ?_⟩
  cases left with
  | nil => cases hread
  | cons c rest =>
    have hc : c ≠ (')' : CodePoint) := fun heq => hhead (congrArg some heq)
    rw [parameters, if_neg hc]
    split
    · next heq =>
      rw [hread] at heq
      cases heq
    · next heq =>
      rw [hread] at heq
      cases heq
      cases parameters whole left' <;> rfl

/-- Each round takes something away from what is left, so the rounds come to an end. -/
theorem wellFounded_round (whole : Text) : WellFounded fun left' left => Round whole left left' := by
  refine Subrelation.wf ?_ (measure (List.length : Text → Nat)).wf
  rintro left' left ⟨-, t, hread⟩
  exact read_length hread

/-! ### Both readers -/

/-- The readers give names exactly where the text follows the grammar, and they are the names that the grammar gives. A
method descriptor is split in one way only. Its parameters are read in rounds, which always come to an end. All other
texts are refused as faults of the format. -/
theorem readers_exact (s : Text) :
    (∀ name, (fieldType s).map FieldType.name = .ok name ↔ IsField s name) ∧
    (∀ resultName names,
      (methodType s).map (fun m => (m.resultName, m.parameters.map FieldType.name)) = .ok (resultName, names) ↔
        ∃ fields result, IsMethod s fields result names resultName) ∧
    (∀ fields result names resultName fields' result' names' resultName', IsMethod s fields result names resultName →
      IsMethod s fields' result' names' resultName' →
        fields = fields' ∧ result = result' ∧ names = names' ∧ resultName = resultName') ∧
    (∀ left left', Round s left left' →
      ∃ t, parameters s left = (parameters s left').map fun p => (t :: p.1, p.2)) ∧
    (WellFounded fun left' left => Round s left left') ∧
    ((¬ ∃ name, IsField s name) →
      ∃ f, fieldType s = .error f ∧ (ClassFile.Fault.badDescriptor f).isMalformed = true) ∧
    ((¬ ∃ fields result names resultName, IsMethod s fields result names resultName) →
      ∃ f, methodType s = .error f ∧ (ClassFile.Fault.badDescriptor f).isMalformed = true) := by
  refine ⟨fun name => fieldName_eq_ok, fun resultName names => methodNames_eq_ok, fun _ _ _ _ _ _ _ _ => IsMethod.unique,
    fun left left' => parameters_of_round, wellFounded_round s, fun hnone => ?_, fun hnone => ?_⟩
  · cases hfield : fieldType s with
    | error f => exact ⟨f, rfl, rfl⟩
    | ok t =>
      have hname : IsField s t.name := fieldName_eq_ok.1 (map_eq_ok.2 ⟨t, hfield, rfl⟩)
      exact absurd ⟨_, hname⟩ hnone
  · cases hmethod : methodType s with
    | error f => exact ⟨f, rfl, rfl⟩
    | ok m =>
      have hparts := isMethod_iff.2 ⟨m, hmethod, rfl, rfl, rfl, rfl⟩
      exact absurd ⟨_, _, _, _, hparts⟩ hnone

end Coupling.Descriptor
