import Coupling.ClassFile.Raw
import Coupling.Proofs.Lookup
import Mathlib.Data.List.Forall2

/-!
# What a class file says

A class file describes a class: its name, its flags, its version, and for each method the types that it mentions. This is
said here through what the indices of the file lead to. A reference that leads nowhere is left out, and costs nothing but
the type it would have named. The summary of a class file is the only thing that it describes.
-/

namespace Coupling.ClassFile

open Descriptor (FieldType MethodType)

/-! ### References in a row -/

/-- The names that references lead to, in order. Those that lead nowhere are left out. -/
inductive Resolved {α : Type} (leads : α → Text → Prop) : List α → List Text → Prop where
  /-- No references are left. -/
  | nil : Resolved leads [] []
  /-- A reference that leads to a name. -/
  | found {a : α} {name : Text} {as : List α} {names : List Text} :
    leads a name → Resolved leads as names → Resolved leads (a :: as) (name :: names)
  /-- A reference that leads nowhere. -/
  | lost {a : α} {as : List α} {names : List Text} :
    (∀ name, ¬ leads a name) → Resolved leads as names → Resolved leads (a :: as) names

theorem resolved_iff {α : Type} {leads : α → Text → Prop} {lookup : α → Option Text}
    (h : ∀ a name, lookup a = some name ↔ leads a name) {as : List α} {names : List Text} :
    Resolved leads as names ↔ names = as.filterMap lookup := by
  constructor
  · intro hres
    induction hres with
    | nil => rfl
    | @found a name as names hleads _ ih => rw [List.filterMap_cons_some ((h a name).2 hleads), ih]
    | @lost a as names hnone _ ih =>
      have hlookup : lookup a = none := Option.eq_none_iff_forall_ne_some.2 fun name hname => hnone name ((h a name).1 hname)
      rw [List.filterMap_cons_none hlookup, ih]
  · rintro rfl
    induction as with
    | nil => exact .nil
    | cons a as ih =>
      cases hlookup : lookup a with
      | none =>
        rw [List.filterMap_cons_none hlookup]
        refine .lost (fun name hleads => ?_) ih
        rw [(h a name).2 hleads] at hlookup
        cases hlookup
      | some name =>
        rw [List.filterMap_cons_some hlookup]
        exact .found ((h a name).1 hlookup) ih

/-! ### Methods -/

/-- The class that an instruction names. -/
def Instruction.Names (pool : Pool) : Instruction → Text → Prop
  | reference _ .member index _, name => pool.HasMember index name
  | reference _ .type index _, name => pool.HasClass index name
  | _, _ => False

/-- The type of a local variable. -/
def RawLocal.HasType (pool : Pool) (v : RawLocal) (name : Text) : Prop :=
  ∃ t : FieldType, t.WellFormed ∧ pool.HasText v.descriptorIndex t.encode ∧ name = t.name

/-- The entries of the tables of local variables. -/
def RawCodeAttribute.entries : RawCodeAttribute → List RawLocal
  | locals _ entries _ => entries
  | other _ => []

namespace RawMethodAttribute

/-- The indices of the declared exceptions. -/
def indices : RawMethodAttribute → List Nat
  | exceptions _ indices _ => indices
  | _ => []

/-- The instructions. -/
def instructions : RawMethodAttribute → List Instruction
  | code _ content => content.instructions
  | _ => []

/-- The entries of the tables of local variables. -/
def entries : RawMethodAttribute → List RawLocal
  | code _ content => content.attributes.flatMap RawCodeAttribute.entries
  | _ => []

end RawMethodAttribute

namespace RawMethod

variable (pool : Pool) (m : RawMethod)

/-- The name of a method, which is never empty. -/
def HasName (name : Text) : Prop :=
  (name ≠ [] ∧ pool.HasText m.nameIndex name) ∨ (name = unnamed ∧ ∀ text, pool.HasText m.nameIndex text → text = [])

/-- The descriptor of a method. -/
def HasDescriptor (descriptor : Text) : Prop :=
  pool.HasText m.descriptorIndex descriptor ∨ (descriptor = [] ∧ ∀ text, ¬ pool.HasText m.descriptorIndex text)

/-- The types of the result and of the parameters. -/
def HasTypes (result : Text) (parameters : List Text) : Prop :=
  (∃ t : MethodType, t.WellFormed ∧ pool.HasText m.descriptorIndex t.encode ∧ result = t.resultName ∧
    parameters = t.parameters.map FieldType.name) ∨
  ((∀ t : MethodType, t.WellFormed → ¬ pool.HasText m.descriptorIndex t.encode) ∧ result = "void" ∧ parameters = [])

/-- What a method of a class file says. -/
structure Describes (d : MethodSummary) : Prop where
  name : m.HasName pool d.name
  descriptor : m.HasDescriptor pool d.descriptor
  types : m.HasTypes pool d.result d.parameters
  exceptions : ∀ name, name ∈ d.exceptions ↔
    ∃ index ∈ m.attributes.flatMap RawMethodAttribute.indices, pool.HasClass index name
  operands : Resolved (Instruction.Names pool) (m.attributes.flatMap RawMethodAttribute.instructions) d.operands
  locals : Resolved (RawLocal.HasType pool) (m.attributes.flatMap RawMethodAttribute.entries) d.locals

end RawMethod

/-- What a class file says. -/
structure RawClass.Describes (c : RawClass) (d : ClassSummary) : Prop where
  name : c.pool.HasClass c.thisIndex d.name
  flags : d.flags = c.flags
  major : d.major = c.major
  minor : d.minor = c.minor
  methods : List.Forall₂ (RawMethod.Describes c.pool) c.methods d.methods

/-! ### The summary is what is described -/

theorem toOption_eq_some {ε α : Type} {x : Except ε α} {a : α} : x.toOption = some a ↔ x = .ok a := by
  cases x <;> simp [Except.toOption]

theorem Instruction.ref?_resolve_eq_some {pool : Pool} (i : Instruction) (name : Text) :
    (i.ref?.bind fun ref => (ref.resolve pool).toOption) = some name ↔ i.Names pool name := by
  cases i with
  | reference opcode kind index extra =>
    cases kind with
    | member => exact toOption_eq_some.trans Pool.memberOwner_eq_ok
    | type => exact toOption_eq_some.trans Pool.className_eq_ok
  | plain | wide | tableSwitch | lookupSwitch => simp [ref?, Names]

theorem RawLocal.type?_eq_some {pool : Pool} (v : RawLocal) (name : Text) :
    v.type? pool = some name ↔ v.HasType pool name := by
  unfold type? HasType
  rcases pool.utf8_cases v.descriptorIndex with ⟨text, hutf8, htext⟩ | ⟨f, hutf8, htext⟩
  · simp only [hutf8, htext, Option.map_eq_some_iff, toOption_eq_some, Descriptor.fieldType_eq_ok]
    constructor
    · rintro ⟨t, ⟨hwf, rfl⟩, rfl⟩
      exact ⟨t, hwf, rfl, rfl⟩
    · rintro ⟨t, hwf, rfl, rfl⟩
      exact ⟨t, ⟨hwf, rfl⟩, rfl⟩
  · simp [hutf8, htext]

namespace RawMethod

variable {pool : Pool} {m : RawMethod}

theorem hasName_iff {name : Text} : m.HasName pool name ↔ name = m.name pool := by
  unfold HasName RawMethod.name
  rcases pool.utf8_cases m.nameIndex with ⟨text, hutf8, htext⟩ | ⟨f, hutf8, htext⟩
  · simp only [hutf8, htext]
    cases text with
    | nil => simp
    | cons c text =>
      constructor
      · rintro (⟨-, rfl⟩ | ⟨-, hempty⟩)
        · rfl
        · cases hempty _ rfl
      · rintro rfl
        exact .inl ⟨List.cons_ne_nil c text, rfl⟩
  · simp [hutf8, htext]

theorem hasDescriptor_iff {descriptor : Text} : m.HasDescriptor pool descriptor ↔ descriptor = m.descriptor pool := by
  unfold HasDescriptor RawMethod.descriptor
  rcases pool.utf8_cases m.descriptorIndex with ⟨text, hutf8, htext⟩ | ⟨f, hutf8, htext⟩
  · simp [hutf8, htext, Except.toOption]
  · simp [hutf8, htext, Except.toOption]

theorem methodType_descriptor_eq_ok {t : MethodType} : Descriptor.methodType (m.descriptor pool) = .ok t ↔
    t.WellFormed ∧ pool.HasText m.descriptorIndex t.encode := by
  rw [Descriptor.methodType_eq_ok]
  unfold RawMethod.descriptor
  rcases pool.utf8_cases m.descriptorIndex with ⟨text, hutf8, htext⟩ | ⟨f, hutf8, htext⟩
  · simp [hutf8, htext, Except.toOption, eq_comm]
  · simp [hutf8, htext, Except.toOption, MethodType.encode]

theorem hasTypes_iff {result : Text} {parameters : List Text} : m.HasTypes pool result parameters ↔
    result = (m.summary pool).result ∧ parameters = (m.summary pool).parameters := by
  have htypes : (m.summary pool).result =
        ((Descriptor.methodType (m.descriptor pool)).toOption.getD ⟨[], none⟩).resultName ∧
      (m.summary pool).parameters =
        ((Descriptor.methodType (m.descriptor pool)).toOption.getD ⟨[], none⟩).parameters.map FieldType.name :=
    ⟨rfl, rfl⟩
  rw [htypes.1, htypes.2]
  cases htype : Descriptor.methodType (m.descriptor pool) with
  | error f =>
    have hnone {t : MethodType} (hwf : t.WellFormed) (htext : pool.HasText m.descriptorIndex t.encode) : False := by
      rw [methodType_descriptor_eq_ok.2 ⟨hwf, htext⟩] at htype
      cases htype
    constructor
    · rintro (⟨t, hwf, htext, -⟩ | ⟨-, rfl, rfl⟩)
      · exact (hnone hwf htext).elim
      · exact ⟨rfl, rfl⟩
    · rintro ⟨rfl, rfl⟩
      exact .inr ⟨fun t => hnone, rfl, rfl⟩
  | ok t =>
    obtain ⟨hwf, htext⟩ := methodType_descriptor_eq_ok.1 htype
    constructor
    · rintro (⟨t', hwf', htext', rfl, rfl⟩ | ⟨hnone, -⟩)
      · rw [methodType_descriptor_eq_ok.2 ⟨hwf', htext'⟩] at htype
        cases htype
        exact ⟨rfl, rfl⟩
      · exact absurd htext (hnone t hwf)
    · rintro ⟨rfl, rfl⟩
      exact .inl ⟨t, hwf, htext, rfl, rfl⟩

theorem mem_exceptions_iff {name : Text} : name ∈ (m.summary pool).exceptions ↔
    ∃ index ∈ m.attributes.flatMap RawMethodAttribute.indices, pool.HasClass index name := by
  have hindices (a : RawMethodAttribute) :
      name ∈ a.exceptionTypes pool ↔ ∃ index ∈ a.indices, pool.HasClass index name := by
    cases a with
    | exceptions nameIndex indices slack =>
      simp [RawMethodAttribute.exceptionTypes, RawMethodAttribute.indices, toOption_eq_some, Pool.className_eq_ok]
    | code | other => simp [RawMethodAttribute.exceptionTypes, RawMethodAttribute.indices]
  simp only [summary, SortedSet.mem_ofList, List.mem_flatMap, hindices]
  constructor
  · rintro ⟨a, ha, index, hindex, hclass⟩
    exact ⟨index, ⟨a, ha, hindex⟩, hclass⟩
  · rintro ⟨index, ⟨a, ha, hindex⟩, hclass⟩
    exact ⟨a, ha, index, hindex, hclass⟩

theorem operands_eq : (m.summary pool).operands =
    (m.attributes.flatMap RawMethodAttribute.instructions).filterMap fun i =>
      i.ref?.bind fun ref => (ref.resolve pool).toOption := by
  rw [List.filterMap_flatMap]
  refine congrArg (List.flatMap · m.attributes) (funext fun a => ?_)
  cases a <;> rfl

theorem locals_eq : (m.summary pool).locals =
    (m.attributes.flatMap RawMethodAttribute.entries).filterMap (RawLocal.type? pool) := by
  rw [List.filterMap_flatMap]
  refine congrArg (List.flatMap · m.attributes) (funext fun a => ?_)
  cases a with
  | code index content =>
    show content.attributes.flatMap (RawCodeAttribute.localTypes pool) =
      (content.attributes.flatMap RawCodeAttribute.entries).filterMap (RawLocal.type? pool)
    rw [List.filterMap_flatMap]
    refine congrArg (List.flatMap · content.attributes) (funext fun a => ?_)
    cases a <;> rfl
  | exceptions | other => rfl

/-- A method describes its summary and nothing else. -/
theorem describes_iff {d : MethodSummary} : m.Describes pool d ↔ d = m.summary pool := by
  constructor
  · rintro ⟨hname, hdescriptor, htypes, hexceptions, hoperands, hlocals⟩
    obtain ⟨hresult, hparameters⟩ := hasTypes_iff.1 htypes
    have hname := hasName_iff.1 hname
    have hdescriptor := hasDescriptor_iff.1 hdescriptor
    have hexceptions : d.exceptions = (m.summary pool).exceptions :=
      SortedSet.ext fun name => (hexceptions name).trans mem_exceptions_iff.symm
    have hoperands := ((resolved_iff Instruction.ref?_resolve_eq_some).1 hoperands).trans operands_eq.symm
    have hlocals := ((resolved_iff RawLocal.type?_eq_some).1 hlocals).trans locals_eq.symm
    cases d
    simp_all [summary]
  · rintro rfl
    exact ⟨hasName_iff.2 rfl, hasDescriptor_iff.2 rfl, hasTypes_iff.2 ⟨rfl, rfl⟩, fun name => mem_exceptions_iff,
      (resolved_iff Instruction.ref?_resolve_eq_some).2 operands_eq, (resolved_iff RawLocal.type?_eq_some).2 locals_eq⟩

end RawMethod

/-- A class file describes its summary and nothing else, if the name of its class is found. -/
theorem RawClass.describes_iff {c : RawClass} {d : ClassSummary} :
    c.Describes d ↔ ∃ name, c.pool.HasClass c.thisIndex name ∧ d = c.summary name := by
  have hmethods : ∀ {ds : List MethodSummary}, List.Forall₂ (RawMethod.Describes c.pool) c.methods ds ↔
      ds = c.methods.map (RawMethod.summary c.pool) := by
    intro ds
    have hdescribes : RawMethod.Describes c.pool = fun m d => m.summary c.pool = d :=
      funext fun m => funext fun d => propext (RawMethod.describes_iff.trans eq_comm)
    rw [eq_comm, ← List.forall₂_eq_eq_eq, List.forall₂_map_left_iff, hdescribes]
  constructor
  · rintro ⟨hname, hflags, hmajor, hminor, hall⟩
    refine ⟨d.name, hname, ?_⟩
    cases d
    simp_all [summary]
  · rintro ⟨name, hname, rfl⟩
    exact ⟨hname, rfl, rfl, rfl, hmethods.2 rfl⟩

end Coupling.ClassFile
