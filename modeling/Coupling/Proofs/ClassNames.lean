import Coupling.Proofs.Description
import Coupling.Proofs.DescriptorGrammar

/-!
# One class, one name

A class file names a class in two ways. A descriptor holds the path of the class between `L` and `;`, behind one `[` for each
array dimension. An entry of the constant pool holds the bare path, or such a descriptor if it stands for an array. The two
are read by different rules, and still they give the same type name, up to the brackets of the array. So it does not matter
where a method mentions a class: the element type is the same, and so is the package, which is the path up to its last
slash.
-/

namespace Coupling

/-! ### Names without brackets -/

namespace TypeName

theorem suffix_brackets_succ (t : Text) (n : Nat) : Text.ofString "[]" <:+ t ++ brackets (n + 1) := by
  rw [brackets_succ, ← List.append_assoc]
  exact List.suffix_append _ _

/-- A name that does not end in brackets is its own element type. -/
theorem element_eq_self {t : Text} (h : ¬ Text.ofString "[]" <:+ t) : element t = t := by
  obtain ⟨n, hn⟩ := exists_brackets t
  cases n with
  | zero => simpa using hn.symm
  | succ n =>
    have hsuffix := suffix_brackets_succ (element t) n
    rw [← hn] at hsuffix
    exact absurd hsuffix h

end TypeName

namespace Descriptor

/-! ### Paths of classes -/

/-- The descriptor of a class, or of an array of its objects with a number of dimensions. -/
def ofClass (dimensions : Nat) (path : Text) : Text :=
  List.replicate dimensions ('[' : CodePoint) ++ ('L' : CodePoint) :: (path ++ ";")

/-- What stands before the last slash of a path, with dots for slashes, and nothing where there is no slash. -/
def BeforeLastSlash (path package : Text) : Prop :=
  ('/' : CodePoint) ∉ path ∧ package = [] ∨ ∃ front last, ('/' : CodePoint) ∉ last ∧
    path = front ++ ('/' : CodePoint) :: last ∧
    package = front.map fun c : CodePoint => if c = '/' then ('.' : CodePoint) else c

/-- Brackets at the end of a name come from the path. -/
theorem not_suffix_dotted {path : Text} (h : ¬ Text.ofString "[]" <:+ path) : ¬ Text.ofString "[]" <:+ dotted path := by
  rintro ⟨front, hfront⟩
  obtain ⟨before, ending, rfl, -, hending⟩ := List.map_eq_append_iff.1 hfront.symm
  obtain ⟨c, rest, rfl, hc, hrest⟩ := List.map_eq_cons_iff.1 hending
  obtain ⟨d, rest, rfl, hd, hnil⟩ := List.map_eq_cons_iff.1 hrest
  obtain rfl := List.map_eq_nil_iff.1 hnil
  have hopening : c = ('[' : CodePoint) := by
    split at hc
    · exact absurd hc (by decide)
    · exact hc
  have hclosing : d = (']' : CodePoint) := by
    split at hd
    · exact absurd hd (by decide)
    · exact hd
  subst hopening hclosing
  exact h ⟨before, rfl⟩

theorem dot_mem_dotted {s : Text} (hdot : ('.' : CodePoint) ∉ s) : ('.' : CodePoint) ∈ dotted s ↔ ('/' : CodePoint) ∈ s := by
  constructor
  · intro h
    obtain ⟨c, hc, heq⟩ := List.mem_map.1 h
    split at heq
    · next hslash => rwa [← hslash]
    · exact absurd (heq ▸ hc) hdot
  · intro h
    exact List.mem_map.2 ⟨_, h, if_pos rfl⟩

/-- Without dots in the path, the last dot of the name is the last slash of the path. -/
theorem beforeLastSlash_of_dot {path package : Text} (hdot : ('.' : CodePoint) ∉ path)
    (h : TypeName.BeforeLastDot (dotted path) package) : BeforeLastSlash path package := by
  rcases h with ⟨hnone, hempty⟩ | ⟨last, hlast, hname⟩
  · exact .inl ⟨fun hslash => hnone ((dot_mem_dotted hdot).2 hslash), hempty⟩
  · obtain ⟨front, rest, rfl, rfl, hrest⟩ := List.map_eq_append_iff.1 hname
    obtain ⟨c, last, rfl, hc, rfl⟩ := List.map_eq_cons_iff.1 hrest
    simp only [List.mem_append, List.mem_cons, not_or] at hdot
    obtain ⟨-, hne, hdot⟩ := hdot
    have hslash : c = ('/' : CodePoint) := by
      split at hc
      · assumption
      · exact absurd hc.symm hne
    subst hslash
    exact .inr ⟨front, last, fun hmem => hlast ((dot_mem_dotted hdot).2 hmem), rfl, rfl⟩

/-- The element type and the package of a class that is named by a path, and of arrays of its objects. -/
theorem element_and_package {path : Text} (hplain : ¬ Text.ofString "[]" <:+ path) (n : Nat) :
    TypeName.element (dotted path ++ TypeName.brackets n) = dotted path ∧
      (('.' : CodePoint) ∉ path → BeforeLastSlash path (TypeName.package (dotted path ++ TypeName.brackets n))) := by
  have helement : TypeName.element (dotted path) = dotted path := TypeName.element_eq_self (not_suffix_dotted hplain)
  constructor
  · rw [TypeName.element_append_brackets, helement]
  · intro hdot
    have hpackage := TypeName.beforeLastDot_package (dotted path)
    rw [helement] at hpackage
    rw [TypeName.package_append_brackets]
    exact beforeLastSlash_of_dot hdot hpackage

/-! ### Both ways to name a class -/

variable {path : Text}

theorem isField_ofClass (hne : path ≠ []) (hpath : (';' : CodePoint) ∉ path) (n : Nat) :
    IsField (ofClass n path) (dotted path ++ TypeName.brackets n) := ⟨n, _, _, .object hne hpath, rfl, rfl⟩

theorem IsField.unique {s name name' : Text} (h : IsField s name) (h' : IsField s name') : name = name' :=
  Except.ok.inj ((fieldName_eq_ok.2 h).symm.trans (fieldName_eq_ok.2 h'))

/-- A descriptor of an array stands for the same type in the constant pool. -/
theorem entryName_ofClass (hne : path ≠ []) (hpath : (';' : CodePoint) ∉ path) {n : Nat} (hn : 1 ≤ n) :
    entryName (ofClass n path) = .ok (dotted path ++ TypeName.brackets n) := by
  have hhead : (ofClass n path).head? = some ('[' : CodePoint) := by
    cases n with
    | zero => exact absurd hn (by decide)
    | succ n => rfl
  rw [entryName_array hhead]
  exact fieldName_eq_ok.2 (isField_ofClass hne hpath n)

theorem ofClass_ne_void (n : Nat) : ofClass n path ≠ Text.ofString "V" := by
  cases n with
  | zero =>
    intro h
    exact absurd (List.cons.inj h).1 (by decide)
  | succ n =>
    intro h
    exact absurd (List.cons.inj h).1 (by decide)

end Descriptor

/-! ### Mentions in a method -/

/-- Where a method mentions types. -/
inductive Place where
  /-- The types of the result and of the parameters. -/
  | signature
  /-- The declared exceptions. -/
  | exceptions
  /-- The operands of instructions. -/
  | operands
  /-- The types of local variables. -/
  | locals

/-- The types that a method mentions in one place. -/
def MethodSummary.typesAt (m : MethodSummary) : Place → List Text
  | .signature => m.result :: m.parameters
  | .exceptions => m.exceptions.toList
  | .operands => m.operands
  | .locals => m.locals

namespace ClassFile

open Descriptor (ofClass IsMethod IsField IsEntryName dotted)

/-- An index that leads to the entry of a class, or of an array of its objects. -/
def Pool.NamesClass (p : Pool) (path : Text) (index : Nat) : Prop :=
  ∃ nameIndex text, p.Holds index (.classRef nameIndex) ∧ p.HasText nameIndex text ∧
    (text = path ∨ ∃ n, 1 ≤ n ∧ text = ofClass n path)

/-- An instruction that leads to the entry of a class, or to a member of one. -/
def Instruction.NamesClass (pool : Pool) (path : Text) : Instruction → Prop
  | reference _ .member index _ => ∃ kind classIndex nameAndTypeIndex,
      pool.Holds index (.memberRef kind classIndex nameAndTypeIndex) ∧ pool.NamesClass path classIndex
  | reference _ .type index _ => pool.NamesClass path index
  | _ => False

/-- A method that names a class in some place. -/
def RawMethod.NamesAt (pool : Pool) (m : RawMethod) (path : Text) : Place → Prop
  | .signature => ∃ fields result names resultName n,
      IsMethod (m.descriptor pool) fields result names resultName ∧ ofClass n path ∈ result :: fields
  | .exceptions => ∃ index ∈ m.attributes.flatMap RawMethodAttribute.indices, pool.NamesClass path index
  | .operands => ∃ i ∈ m.attributes.flatMap RawMethodAttribute.instructions, i.NamesClass pool path
  | .locals => ∃ v ∈ m.attributes.flatMap RawMethodAttribute.entries, ∃ n, pool.HasText v.descriptorIndex (ofClass n path)

section Mentions

variable {path : Text} {pool : Pool} {m : RawMethod}
variable (hne : path ≠ []) (hpath : (';' : CodePoint) ∉ path) (hplain : path.head? ≠ some ('[' : CodePoint))

include hne hpath

/-- The name of a descriptor in a row of descriptors. -/
theorem mem_names_of_mem_fields {fields names : List Text} (h : List.Forall₂ IsField fields names) {n : Nat}
    (hmem : ofClass n path ∈ fields) : dotted path ++ TypeName.brackets n ∈ names := by
  induction h with
  | nil => exact absurd hmem List.not_mem_nil
  | cons hfield _ ih =>
    rcases List.mem_cons.1 hmem with rfl | hmem
    · rw [(Descriptor.isField_ofClass hne hpath n).unique hfield]
      exact List.mem_cons_self
    · exact List.mem_cons_of_mem _ (ih hmem)

theorem exists_mem_signature (h : m.NamesAt pool path .signature) :
    ∃ n, dotted path ++ TypeName.brackets n ∈ (m.summary pool).typesAt .signature := by
  obtain ⟨fields, result, names, resultName, n, hmethod, hmem⟩ := h
  obtain ⟨type, htype, -, -, hnames, hresultName⟩ := Descriptor.isMethod_iff.1 hmethod
  have hsummary : (m.summary pool).typesAt .signature = resultName :: names := by
    simp only [MethodSummary.typesAt, RawMethod.summary, htype, hnames, hresultName, Except.toOption, Option.getD_some]
  refine ⟨n, ?_⟩
  rw [hsummary]
  rcases List.mem_cons.1 hmem with rfl | hmem
  · rcases hmethod.result with ⟨hvoid, -⟩ | hfield
    · exact absurd hvoid (Descriptor.ofClass_ne_void n)
    · rw [(Descriptor.isField_ofClass hne hpath n).unique hfield]
      exact List.mem_cons_self
  · exact List.mem_cons_of_mem _ (mem_names_of_mem_fields hne hpath hmethod.parameters hmem)

theorem exists_mem_locals (h : m.NamesAt pool path .locals) :
    ∃ n, dotted path ++ TypeName.brackets n ∈ (m.summary pool).typesAt .locals := by
  obtain ⟨v, hv, n, htext⟩ := h
  obtain ⟨t, hwf, hcode, hname⟩ := Descriptor.isField_iff.1 (Descriptor.isField_ofClass hne hpath n)
  rw [hcode] at htext
  refine ⟨n, ?_⟩
  rw [MethodSummary.typesAt, RawMethod.locals_eq, List.mem_filterMap]
  exact ⟨v, hv, (v.type?_eq_some _).2 ⟨t, hwf, htext, hname⟩⟩

include hplain

/-- An entry of the constant pool gives the name of the class that it leads to. -/
theorem Pool.NamesClass.hasClass {index : Nat} (h : pool.NamesClass path index) :
    ∃ n, pool.HasClass index (dotted path ++ TypeName.brackets n) := by
  obtain ⟨nameIndex, text, hholds, htext, rfl | ⟨n, hn, rfl⟩⟩ := h
  · have hname := Descriptor.entryName_eq_ok.1 (Descriptor.entryName_class hplain)
    refine ⟨0, nameIndex, text, hholds, htext, ?_⟩
    simpa using hname
  · have hname := Descriptor.entryName_eq_ok.1 (Descriptor.entryName_ofClass hne hpath hn)
    exact ⟨n, nameIndex, _, hholds, htext, hname⟩

theorem Instruction.NamesClass.names {i : Instruction} (h : i.NamesClass pool path) :
    ∃ n, i.Names pool (dotted path ++ TypeName.brackets n) := by
  cases i with
  | reference opcode kind index extra =>
    cases kind with
    | member =>
      obtain ⟨kind, classIndex, other, hholds, hnames⟩ := h
      obtain ⟨n, hclass⟩ := hnames.hasClass hne hpath hplain
      exact ⟨n, kind, classIndex, other, hholds, hclass⟩
    | type => exact Pool.NamesClass.hasClass hne hpath hplain h
  | plain | wide | tableSwitch | lookupSwitch => exact h.elim

/-- Wherever a method names a class, it mentions the type of that name, perhaps with brackets. -/
theorem exists_mem_typesAt {place : Place} (h : m.NamesAt pool path place) :
    ∃ n, dotted path ++ TypeName.brackets n ∈ (m.summary pool).typesAt place := by
  cases place with
  | signature => exact exists_mem_signature hne hpath h
  | exceptions =>
    obtain ⟨index, hindex, hnames⟩ := h
    obtain ⟨n, hclass⟩ := hnames.hasClass hne hpath hplain
    refine ⟨n, ?_⟩
    rw [MethodSummary.typesAt, SortedSet.mem_toList, RawMethod.mem_exceptions_iff]
    exact ⟨index, hindex, hclass⟩
  | operands =>
    obtain ⟨i, hi, hnames⟩ := h
    obtain ⟨n, hname⟩ := hnames.names hne hpath hplain
    refine ⟨n, ?_⟩
    rw [MethodSummary.typesAt, RawMethod.operands_eq, List.mem_filterMap]
    exact ⟨i, hi, (i.ref?_resolve_eq_some _).2 hname⟩
  | locals => exact exists_mem_locals hne hpath h

end Mentions

/-- A class is the same type however it is named. Its path is read as a name. A descriptor of the class, or of an array of
its objects, gives this name with the brackets of the array, and so does an entry of the constant pool that holds such a
descriptor. If the path does not end in brackets itself, the name is the element type of all these, and without dots in the
path their package is what stands before the last slash. So wherever a method of a class file names the class, it mentions a
type with this element type and this package. -/
theorem named_alike (path : Text) (hne : path ≠ []) (hpath : (';' : CodePoint) ∉ path)
    (hplain : path.head? ≠ some ('[' : CodePoint)) :
    ∃ name, Descriptor.entryName path = .ok name ∧
      (∀ n, (Descriptor.fieldType (ofClass n path)).map Descriptor.FieldType.name = .ok (name ++ TypeName.brackets n)) ∧
      (∀ n, 1 ≤ n → Descriptor.entryName (ofClass n path) = .ok (name ++ TypeName.brackets n)) ∧
      (¬ Text.ofString "[]" <:+ path → (∀ n, TypeName.element (name ++ TypeName.brackets n) = name) ∧
        (('.' : CodePoint) ∉ path →
          (∀ n, Descriptor.BeforeLastSlash path (TypeName.package (name ++ TypeName.brackets n))) ∧
          ∀ pool m place, RawMethod.NamesAt pool m path place → ∃ t ∈ (m.summary pool).typesAt place,
            TypeName.element t = name ∧ Descriptor.BeforeLastSlash path (TypeName.package t))) := by
  refine ⟨dotted path, Descriptor.entryName_class hplain, fun n => ?_, fun n hn => ?_, fun hbrackets => ⟨fun n => ?_, ?_⟩⟩
  · exact Descriptor.fieldName_eq_ok.2 (Descriptor.isField_ofClass hne hpath n)
  · exact Descriptor.entryName_ofClass hne hpath hn
  · exact (Descriptor.element_and_package hbrackets n).1
  · intro hdot
    have hpackage (n : Nat) := (Descriptor.element_and_package hbrackets n).2 hdot
    refine ⟨hpackage, fun pool m place h => ?_⟩
    obtain ⟨n, hmem⟩ := exists_mem_typesAt hne hpath hplain h
    exact ⟨_, hmem, (Descriptor.element_and_package hbrackets n).1, hpackage n⟩

/-- A class and an array of its objects, each as a text and as an entry, and a method of the array. -/
def mentioningPool : Pool where
  slots := #[none, some (.utf8 [] "a/b/C"), some (.classRef 1), some (.utf8 [] "[[La/b/C;"), some (.classRef 3),
    some (.memberRef .methodref 4 0), some (.utf8 [] "(I[La/b/C;)V")]

/-- A method that names the class in every place. -/
def mentioningMethod : RawMethod where
  flags := [0, 0]
  nameIndex := 0
  descriptorIndex := 6
  attributes := [.exceptions 0 [2] [],
    .code 0
      { limits := [0, 0, 0, 0]
        instructions := [.reference 0xB6 .member 5 []]
        handlers := []
        attributes := [.locals 0 [⟨[0, 0, 0, 0, 0, 0], 3, [0, 0]⟩] []]
        slack := [] }]

theorem namesAt_mentioningMethod (place : Place) : mentioningMethod.NamesAt mentioningPool "a/b/C" place := by
  cases place with
  | signature =>
    have hletter : ('I', "int") ∈ Descriptor.primitives := by decide
    have hint : IsField "I" "int" := ⟨0, _, _, .primitive hletter, rfl, rfl⟩
    have hne : Text.ofString "a/b/C" ≠ [] := by decide
    have harray : IsField "[La/b/C;" "a.b.C[]" := Descriptor.isField_ofClass hne (by decide) 1
    have hmethod : IsMethod (mentioningMethod.descriptor mentioningPool) ["I", "[La/b/C;"] "V" ["int", "a.b.C[]"] "void" :=
      ⟨rfl, .cons hint (.cons harray .nil), .inl ⟨rfl, rfl⟩⟩
    exact ⟨_, _, _, _, 1, hmethod, by decide⟩
  | exceptions => exact ⟨2, by decide, 1, _, ⟨by decide, rfl⟩, ⟨_, by decide, rfl⟩, .inl rfl⟩
  | operands =>
    have hclass : mentioningPool.NamesClass "a/b/C" 4 :=
      ⟨3, _, ⟨by decide, rfl⟩, ⟨_, by decide, rfl⟩, .inr ⟨2, by decide, rfl⟩⟩
    exact ⟨_, List.mem_singleton.2 rfl, _, _, _, ⟨by decide, rfl⟩, hclass⟩
  | locals => exact ⟨_, List.mem_singleton.2 rfl, 2, _, by decide, rfl⟩

theorem named_alike_mentioningMethod :
    Text.ofString "a/b/C" ≠ [] ∧ (';' : CodePoint) ∉ Text.ofString "a/b/C" ∧
    (Text.ofString "a/b/C").head? ≠ some ('[' : CodePoint) ∧
    ∀ place, ∃ t ∈ (mentioningMethod.summary mentioningPool).typesAt place,
      Descriptor.BeforeLastSlash "a/b/C" (TypeName.package t) := by
  have hne : Text.ofString "a/b/C" ≠ [] := by decide
  have hpath : (';' : CodePoint) ∉ Text.ofString "a/b/C" := by decide
  have hplain : (Text.ofString "a/b/C").head? ≠ some ('[' : CodePoint) := by decide
  obtain ⟨name, -, -, -, hlast⟩ := named_alike "a/b/C" hne hpath hplain
  obtain ⟨-, hpackage⟩ := hlast (by decide)
  refine ⟨hne, hpath, hplain, fun place => ?_⟩
  obtain ⟨t, ht, -, hslash⟩ := (hpackage (by decide)).2 _ _ place (namesAt_mentioningMethod place)
  exact ⟨t, ht, hslash⟩

end ClassFile

end Coupling
