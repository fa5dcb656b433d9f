import Coupling.ClassFile.Descriptor
import Mathlib.Data.List.TakeWhile

/-!
# Reading descriptors

A type whose class names are not empty and hold no `;` has one descriptor. The readers accept exactly the descriptors of
such types and give the type back, so a text is a descriptor of at most one type.
-/

namespace Coupling.Descriptor

/-- The types that have a descriptor. -/
def FieldType.WellFormed : FieldType → Prop
  | .primitive _ => True
  | .object name => name ≠ [] ∧ (';' : CodePoint) ∉ name
  | .array element => element.WellFormed

/-- The method types that have a descriptor. -/
structure MethodType.WellFormed (m : MethodType) : Prop where
  parameters : ∀ t ∈ m.parameters, t.WellFormed
  result : ∀ t ∈ m.result, t.WellFormed

theorem map_eq_ok {α β : Type} {x : Except Fault α} {f : α → β} {b : β} :
    x.map f = .ok b ↔ ∃ a, x = .ok a ∧ f a = b := by
  cases x with
  | error _ => simp [Except.map]
  | ok a => simp [Except.map]

/-! ### The first letter -/

theorem Primitive.ofCode?_eq_some {c : CodePoint} {p : Primitive} : ofCode? c = some p ↔ c = (p.code : CodePoint) := by
  constructor
  · intro h
    have hfound := List.find?_some h
    exact (of_decide_eq_true hfound).symm
  · rintro rfl
    cases p <;> decide

theorem Primitive.ofCode?_L : ofCode? ('L' : Char) = none := by decide

/-- Letters that begin no primitive type and no class. -/
theorem Primitive.code_ne (p : Primitive) :
    (p.code : CodePoint) ≠ '[' ∧ (p.code : CodePoint) ≠ ')' ∧ (p.code : CodePoint) ≠ 'V' := by
  cases p <;> decide

/-- A class name ends at the first `;`. -/
theorem object_split {name : Text} (rest : Text) (h : (';' : CodePoint) ∉ name) :
    (name ++ (';' : CodePoint) :: rest).takeWhile (· ≠ (';' : CodePoint)) = name ∧
      (name ++ (';' : CodePoint) :: rest).dropWhile (· ≠ (';' : CodePoint)) = (';' : CodePoint) :: rest := by
  have hall : ∀ c ∈ name, decide (c ≠ (';' : CodePoint)) = true := fun c hc =>
    decide_eq_true fun heq => h (heq ▸ hc)
  constructor
  · rw [List.takeWhile_append_of_pos hall]
    simp
  · rw [List.dropWhile_append_of_pos hall]
    simp

/-! ### Field types -/

theorem read_primitive (whole rest : Text) (p : Primitive) :
    read whole ((p.code : CodePoint) :: rest) = .ok (.primitive p, rest) := by
  rw [read, if_neg p.code_ne.1, Primitive.ofCode?_eq_some.2 rfl]

theorem read_object {whole name rest : Text} (hne : name ≠ []) (hname : (';' : CodePoint) ∉ name) :
    read whole (('L' : CodePoint) :: (name ++ (';' : CodePoint) :: rest)) = .ok (.object name, rest) := by
  obtain ⟨htake, hdrop⟩ := object_split rest hname
  rw [read, if_neg (by decide), Primitive.ofCode?_L]
  cases name with
  | nil => exact absurd rfl hne
  | cons n name => simp only [if_true, htake, hdrop]

theorem read_encode {t : FieldType} (h : t.WellFormed) (whole rest : Text) :
    read whole (t.encode ++ rest) = .ok (t, rest) := by
  induction t with
  | primitive p => exact read_primitive whole rest p
  | object name =>
    have heq : FieldType.encode (.object name) ++ rest = ('L' : CodePoint) :: (name ++ (';' : CodePoint) :: rest) := by
      simp [FieldType.encode, Text.ofString]
    rw [heq, read_object h.1 h.2]
  | array element ih =>
    rw [FieldType.encode, List.cons_append, read, if_pos rfl, ih h]

theorem eq_encode_of_read {whole s rest : Text} {t : FieldType} (h : read whole s = .ok (t, rest)) :
    t.WellFormed ∧ s = t.encode ++ rest := by
  induction s generalizing t with
  | nil => cases h
  | cons c s ih =>
    rw [read] at h
    split at h
    · next hc =>
      split at h
      · next e rest' heq =>
        cases h
        obtain ⟨he, hs⟩ := ih heq
        exact ⟨he, by rw [hc, hs, FieldType.encode, List.cons_append]⟩
      · cases h
    · split at h
      · next p hp =>
        cases h
        exact ⟨trivial, by rw [Primitive.ofCode?_eq_some.1 hp, FieldType.encode, List.singleton_append]⟩
      · split at h
        · next hc =>
          split at h
          · next n name sep rest' htake hdrop =>
            cases h
            have hsep : sep = (';' : CodePoint) := by
              have := List.head?_dropWhile_not (· ≠ (';' : CodePoint)) s
              rw [hdrop] at this
              simpa using this
            have hname : (';' : CodePoint) ∉ n :: name := fun hmem => by
              have := List.mem_takeWhile_imp (htake ▸ hmem)
              simp at this
            have hs : s = (n :: name) ++ sep :: rest := by
              rw [← htake, ← hdrop, List.takeWhile_append_dropWhile]
            refine ⟨⟨List.cons_ne_nil _ _, hname⟩, ?_⟩
            rw [hc, hs, hsep]
            simp [FieldType.encode, Text.ofString]
          · cases h
        · cases h

theorem fieldType_eq_ok {s : Text} {t : FieldType} : fieldType s = .ok t ↔ t.WellFormed ∧ s = t.encode := by
  constructor
  · intro h
    unfold fieldType at h
    cases hread : read s s with
    | error f =>
      rw [hread] at h
      cases h
    | ok p =>
      obtain ⟨t', rest⟩ := p
      rw [hread] at h
      simp only [bind, Except.bind] at h
      split at h
      · next hrest =>
        cases h
        obtain ⟨ht, hs⟩ := eq_encode_of_read hread
        exact ⟨ht, by rw [hs, hrest, List.append_nil]⟩
      · cases h
  · rintro ⟨ht, rfl⟩
    have hread := read_encode ht t.encode []
    rw [List.append_nil] at hread
    rw [fieldType, hread]
    rfl

/-! ### Method types -/

/-- A descriptor begins neither with the end of a parameter list nor with the mark of no result. -/
theorem FieldType.encode_head (t : FieldType) :
    ∃ c rest, t.encode = c :: rest ∧ c ≠ (')' : CodePoint) ∧ c ≠ ('V' : CodePoint) := by
  cases t with
  | primitive p => exact ⟨_, _, rfl, p.code_ne.2⟩
  | object name => exact ⟨_, _, rfl, by decide, by decide⟩
  | array element => exact ⟨_, _, rfl, by decide, by decide⟩

theorem parameters_encode {ts : List FieldType} (h : ∀ t ∈ ts, t.WellFormed) (whole rest : Text) :
    parameters whole (ts.flatMap FieldType.encode ++ (')' : CodePoint) :: rest) = .ok (ts, rest) := by
  induction ts with
  | nil =>
    rw [List.flatMap_nil, List.nil_append, parameters]
    simp
  | cons t ts ih =>
    obtain ⟨ht, hts⟩ := List.forall_mem_cons.1 h
    obtain ⟨c, more, hcode, hc, -⟩ := t.encode_head
    have hread := read_encode ht whole (ts.flatMap FieldType.encode ++ (')' : CodePoint) :: rest)
    rw [List.flatMap_cons, List.append_assoc]
    rw [hcode, List.cons_append] at hread ⊢
    rw [parameters, if_neg hc]
    split
    · next heq =>
      rw [hread] at heq
      cases heq
    · next heq =>
      rw [hread] at heq
      cases heq
      rw [ih hts]

theorem eq_encode_of_parameters {whole s rest : Text} {ts : List FieldType} (h : parameters whole s = .ok (ts, rest)) :
    (∀ t ∈ ts, t.WellFormed) ∧ s = ts.flatMap FieldType.encode ++ (')' : CodePoint) :: rest := by
  fun_induction parameters whole s generalizing ts rest with
  | case1 => cases h
  | case2 more =>
    cases h
    exact ⟨by simp, rfl⟩
  | case3 => cases h
  | case4 c more hc t rest' hread _ ts' rest'' hrest ih =>
    cases h
    obtain ⟨hts, hrest'⟩ := ih hrest
    obtain ⟨ht, heq⟩ := eq_encode_of_read hread
    exact ⟨List.forall_mem_cons.2 ⟨ht, hts⟩, by rw [heq, hrest', List.flatMap_cons, List.append_assoc]⟩
  | case5 => cases h

theorem methodType_encode {m : MethodType} (h : m.WellFormed) : methodType m.encode = .ok m := by
  obtain ⟨ps, result⟩ := m
  obtain ⟨hps, hresult⟩ := h
  rw [MethodType.encode, methodType, if_pos rfl, parameters_encode hps]
  simp only [bind, Except.bind]
  cases result with
  | none => rfl
  | some t =>
    have hne : t.encode ≠ Text.ofString "V" := by
      obtain ⟨c, more, hcode, -, hc⟩ := t.encode_head
      rw [hcode]
      intro heq
      exact hc (List.cons.inj heq).1
    rw [Option.elim_some, if_neg hne, fieldType_eq_ok.2 ⟨hresult t rfl, rfl⟩]
    rfl

theorem eq_encode_of_methodType {s : Text} {m : MethodType} (h : methodType s = .ok m) :
    m.WellFormed ∧ s = m.encode := by
  unfold methodType at h
  split at h
  · cases h
  · next c rest =>
    split at h
    · next hc =>
      cases hps : parameters (c :: rest) rest with
      | error f =>
        rw [hps] at h
        cases h
      | ok p =>
        obtain ⟨ps, result⟩ := p
        obtain ⟨hwf, hrest⟩ := eq_encode_of_parameters hps
        rw [hps] at h
        simp only [bind, Except.bind] at h
        split at h
        · next hresult =>
          cases h
          exact ⟨⟨hwf, by simp⟩, by rw [hc, hrest, hresult, MethodType.encode]; rfl⟩
        · cases hres : fieldType result with
          | error f =>
            rw [hres] at h
            cases h
          | ok t =>
            rw [hres] at h
            cases h
            obtain ⟨ht, rfl⟩ := fieldType_eq_ok.1 hres
            exact ⟨⟨hwf, by simpa using ht⟩, by rw [hc, hrest, MethodType.encode]; rfl⟩
    · cases h

theorem methodType_eq_ok {s : Text} {m : MethodType} : methodType s = .ok m ↔ m.WellFormed ∧ s = m.encode := by
  constructor
  · exact eq_encode_of_methodType
  · rintro ⟨hm, rfl⟩
    exact methodType_encode hm

/-! ### Classes -/

/-- The name that the text of a class entry gives: that of an array type by its descriptor, and that of a class by the
bare name. -/
def IsEntryName (text name : Text) : Prop :=
  text.head? = some (('[' : Char) : CodePoint) ∧ (∃ t : FieldType, t.WellFormed ∧ text = t.encode ∧ name = t.name) ∨
    text.head? ≠ some (('[' : Char) : CodePoint) ∧ name = dotted text

theorem entryName_array {text : Text} (h : text.head? = some (('[' : Char) : CodePoint)) :
    entryName text = FieldType.name <$> fieldType text := if_pos h

theorem entryName_class {text : Text} (h : text.head? ≠ some (('[' : Char) : CodePoint)) :
    entryName text = .ok (dotted text) := if_neg h

theorem entryName_eq_ok {text name : Text} : entryName text = .ok name ↔ IsEntryName text name := by
  by_cases h : text.head? = some (('[' : Char) : CodePoint)
  · rw [entryName_array h]
    constructor
    · intro heq
      obtain ⟨t, ht, rfl⟩ := map_eq_ok.1 heq
      obtain ⟨hwf, htext⟩ := fieldType_eq_ok.1 ht
      exact .inl ⟨h, t, hwf, htext, rfl⟩
    · rintro (⟨-, t, hwf, htext, rfl⟩ | ⟨hne, -⟩)
      · rw [fieldType_eq_ok.2 ⟨hwf, htext⟩]
        rfl
      · exact absurd h hne
  · rw [entryName_class h]
    constructor
    · intro heq
      cases heq
      exact .inr ⟨h, rfl⟩
    · rintro (⟨heq, -⟩ | ⟨-, rfl⟩)
      · exact absurd heq h
      · rfl

end Coupling.Descriptor
