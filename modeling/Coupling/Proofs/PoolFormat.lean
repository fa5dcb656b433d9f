import Coupling.Proofs.PoolReading
import Mathlib.Algebra.GroupWithZero.Nat

/-!
# Which bytes are a constant pool

A constant pool is a count of slots and a row of entries, each a tag and what the tag asks for. This is said here in terms
of bytes alone. The entries stand in the slots from one on, and the numbers of eight bytes take two of them, so the index
of an entry is found by counting the slots of those before it. From this follows what an index into the pool leads to, and
with which fault it leads nowhere.

Every entry is what one constant is laid out as, and the constants of a row of entries fill the slots that the entries take.
So the format is that of the pools that can be stored.
-/

namespace Coupling.ClassFile

/-! ### Entries -/

/-- The kinds of entries of a constant pool. -/
inductive EntryKind where
  | utf8
  | integer
  | float
  | long
  | double
  | classRef
  | string
  | fieldref
  | methodref
  | interfaceMethodref
  | nameAndType
  | methodHandle
  | methodType
  | dynamic
  | invokeDynamic
  | moduleInfo
  | packageInfo
  deriving DecidableEq

namespace EntryKind

/-- The tag of a kind. -/
def tag : EntryKind → UInt8
  | utf8 => 1
  | integer => 3
  | float => 4
  | long => 5
  | double => 6
  | classRef => 7
  | string => 8
  | fieldref => 9
  | methodref => 10
  | interfaceMethodref => 11
  | nameAndType => 12
  | methodHandle => 15
  | methodType => 16
  | dynamic => 17
  | invokeDynamic => 18
  | moduleInfo => 19
  | packageInfo => 20

/-- How many bytes follow the tag. For a text this depends on its length. -/
def width? : EntryKind → Option Nat
  | utf8 => none
  | integer | float => some 4
  | long | double => some 8
  | classRef | string | methodType | moduleInfo | packageInfo => some 2
  | fieldref | methodref | interfaceMethodref | nameAndType | dynamic | invokeDynamic => some 4
  | methodHandle => some 3

/-- How many slots an entry takes. -/
def slots : EntryKind → Nat
  | long | double => 2
  | _ => 1

/-- What a lookup that wants something else says of an entry. -/
def found : EntryKind → Found
  | utf8 => .utf8
  | classRef => .classRef
  | fieldref => .memberRef .fieldref
  | methodref => .memberRef .methodref
  | interfaceMethodref => .memberRef .interfaceMethodref
  | kind => .uninterpreted kind.tag

end EntryKind

/-- An entry of a constant pool, with the bytes after its tag. -/
structure PoolEntry where
  /-- The kind, which the tag tells. -/
  kind : EntryKind
  /-- The bytes after the tag. -/
  payload : List UInt8

namespace PoolEntry

/-- All bytes of an entry. -/
def bytes (e : PoolEntry) : List UInt8 := e.kind.tag :: e.payload

/-- An entry that holds a text: its length in bytes, and its spelling. -/
def IsText (e : PoolEntry) (text : Text) : Prop := e.kind = .utf8 ∧
  ∃ raw : List UInt8, raw.length < 2 ^ 16 ∧ ModifiedUtf8.Spells raw text ∧ e.payload = numeral 2 raw.length ++ raw

/-- An entry that names a class, by the index of its name. -/
def IsClass (e : PoolEntry) (nameIndex : Nat) : Prop :=
  e.kind = .classRef ∧ nameIndex < 2 ^ 16 ∧ e.payload = numeral 2 nameIndex

/-- An entry that names a field or a method, by the index of its class and two more bytes. -/
def IsMember (e : PoolEntry) (classIndex : Nat) : Prop :=
  e.kind ∈ [EntryKind.fieldref, EntryKind.methodref, EntryKind.interfaceMethodref] ∧ classIndex < 2 ^ 16 ∧
    ∃ nameAndType : List UInt8, nameAndType.length = 2 ∧ e.payload = numeral 2 classIndex ++ nameAndType

/-- An entry with all the bytes that its tag asks for. -/
def IsValid (e : PoolEntry) : Prop := (∃ text, e.IsText text) ∨ e.kind.width? = some e.payload.length

end PoolEntry

/-! ### Pools -/

/-- How many slots entries take. -/
def span (entries : List PoolEntry) : Nat := (entries.map fun e => e.kind.slots).sum

/-- Entries that fill a number of slots. The last one may want a slot more, if it is one that takes two. -/
def Fill (n : Nat) (entries : List PoolEntry) : Prop :=
  span entries = n ∨ span entries = n + 1 ∧ ∃ e, entries.getLast? = some e ∧ e.kind.slots = 2

/-- The entries of a constant pool with a count of slots, slot zero included. -/
structure IsPool (count : Nat) (entries : List PoolEntry) : Prop where
  pos : 1 ≤ count
  lt : count < 2 ^ 16
  valid : ∀ e ∈ entries, e.IsValid
  fill : Fill (count - 1) entries

/-- The bytes of a constant pool. -/
def poolBytes (count : Nat) (entries : List PoolEntry) : List UInt8 := numeral 2 count ++ entries.flatMap PoolEntry.bytes

/-- The slot that an entry starts at, counted from one. -/
def StartsAt (entries : List PoolEntry) (i : Int) (e : PoolEntry) : Prop :=
  ∃ before after, entries = before ++ e :: after ∧ i = 1 + span before

/-- What stands at an index into a pool. -/
inductive Standing (count : Nat) (entries : List PoolEntry) : Int → Found → Prop where
  /-- Nothing, because the index is none of the pool. -/
  | outOfRange {i : Int} : i ≤ 0 ∨ count ≤ i → Standing count entries i .outOfRange
  /-- The second half of an entry. -/
  | unusable {i : Int} {e : PoolEntry} : StartsAt entries (i - 1) e → e.kind.slots = 2 → i < count →
    Standing count entries i .unusable
  /-- The entry that starts there. -/
  | entry {i : Int} {e : PoolEntry} : StartsAt entries i e → Standing count entries i e.kind.found

/-- Whether what stands at an index is of the kind wanted. -/
def Wanted.accepts : Wanted → Found → Bool
  | .utf8, .utf8 => true
  | .classRef, .classRef => true
  | .memberRef, .memberRef _ => true
  | _, _ => false

/-- What a lookup finds: a text, the name that is spelled by the text of a class, or that of the class of a member. -/
inductive Finds (entries : List PoolEntry) : Wanted → Int → Text → Prop where
  /-- An entry that holds the text. -/
  | text {i : Int} {e : PoolEntry} {text : Text} : StartsAt entries i e → e.IsText text → Finds entries .utf8 i text
  /-- An entry that names a class whose name can be converted. -/
  | className {i : Int} {e : PoolEntry} {nameIndex : Nat} {text name : Text} : StartsAt entries i e →
    e.IsClass nameIndex → Finds entries .utf8 nameIndex text → Descriptor.entryName text = .ok name →
    Finds entries .classRef i name
  /-- An entry that names a member of a class. -/
  | owner {i : Int} {e : PoolEntry} {classIndex : Nat} {owner : Text} : StartsAt entries i e → e.IsMember classIndex →
    Finds entries .classRef classIndex owner → Finds entries .memberRef i owner

/-- With which fault a lookup fails. -/
inductive Fails (count : Nat) (entries : List PoolEntry) : Wanted → Int → Fault → Prop where
  /-- What stands at the index is not of the kind wanted. -/
  | standing {wanted : Wanted} {i : Int} {found : Found} : Standing count entries i found →
    wanted.accepts found = false → Fails count entries wanted i (.unresolved i wanted found)
  /-- The name of a class is not found. -/
  | name {i : Int} {e : PoolEntry} {nameIndex : Nat} {f : Fault} : StartsAt entries i e → e.IsClass nameIndex →
    Fails count entries .utf8 nameIndex f → Fails count entries .classRef i f
  /-- The name of a class cannot be converted. -/
  | spelling {i : Int} {e : PoolEntry} {nameIndex : Nat} {text : Text} {f : Descriptor.Fault} : StartsAt entries i e →
    e.IsClass nameIndex → Finds entries .utf8 nameIndex text → Descriptor.entryName text = .error f →
    Fails count entries .classRef i (.badDescriptor f)
  /-- The class of a member is not found. -/
  | owner {i : Int} {e : PoolEntry} {classIndex : Nat} {f : Fault} : StartsAt entries i e → e.IsMember classIndex →
    Fails count entries .classRef classIndex f → Fails count entries .memberRef i f

/-- The lookup that wants a kind of entry. -/
def Pool.lookup (p : Pool) : Wanted → Int → Except Fault Text
  | .utf8 => p.utf8
  | .classRef => p.className
  | .memberRef => p.memberOwner

/-- A pool in which every lookup comes to what entries say. -/
structure Pool.Serves (p : Pool) (count : Nat) (entries : List PoolEntry) : Prop where
  size : p.size = count
  ok : ∀ wanted i text, p.lookup wanted i = .ok text ↔ Finds entries wanted i text
  error : ∀ wanted i f, p.lookup wanted i = .error f ↔ Fails count entries wanted i f

/-! ### Entries as constants -/

/-- The kind of the entries of fields or methods. -/
def MemberKind.entryKind : MemberKind → EntryKind
  | fieldref => .fieldref
  | methodref => .methodref
  | interfaceMethodref => .interfaceMethodref

/-- An entry and what it is read as. -/
inductive PoolEntry.Stores : PoolEntry → Constant → Prop where
  /-- A text. -/
  | utf8 {raw : List UInt8} {text : Text} : raw.length < 2 ^ 16 → ModifiedUtf8.Spells raw text →
    Stores ⟨.utf8, numeral 2 raw.length ++ raw⟩ (.utf8 raw text)
  /-- A class. -/
  | classRef {i : Nat} : i < 2 ^ 16 → Stores ⟨.classRef, numeral 2 i⟩ (.classRef i)
  /-- A field or a method. -/
  | memberRef {kind : MemberKind} {i n : Nat} : i < 2 ^ 16 → n < 2 ^ 16 →
    Stores ⟨kind.entryKind, numeral 2 i ++ numeral 2 n⟩ (.memberRef kind i n)
  /-- Any other entry. -/
  | uninterpreted {kind : EntryKind} {payload : List UInt8} :
    Constant.uninterpretedWidth? kind.tag = some payload.length → Stores ⟨kind, payload⟩ (.uninterpreted kind.tag payload)

namespace PoolEntry

variable {e : PoolEntry} {c : Constant}

theorem exists_numeral {bytes : List UInt8} (h : bytes.length = 2) : ∃ n < 2 ^ 16, bytes = numeral 2 n := by
  have hlt := bigEndian_lt bytes
  have heq := numeral_bigEndian bytes
  rw [h] at hlt heq
  exact ⟨_, hlt, heq.symm⟩

/-- A tag that is never interpreted is the tag of a kind. -/
theorem exists_kind_of_width {tag : UInt8} {width : Nat} (h : Constant.uninterpretedWidth? tag = some width) :
    ∃ kind : EntryKind, kind.tag = tag := by
  unfold Constant.uninterpretedWidth? at h
  split at h
  · exact ⟨.integer, rfl⟩
  · exact ⟨.float, rfl⟩
  · exact ⟨.long, rfl⟩
  · exact ⟨.double, rfl⟩
  · exact ⟨.string, rfl⟩
  · exact ⟨.nameAndType, rfl⟩
  · exact ⟨.methodHandle, rfl⟩
  · exact ⟨.methodType, rfl⟩
  · exact ⟨.dynamic, rfl⟩
  · exact ⟨.invokeDynamic, rfl⟩
  · exact ⟨.moduleInfo, rfl⟩
  · exact ⟨.packageInfo, rfl⟩
  · cases h

namespace Stores

theorem wellFormed (h : Stores e c) : c.WellFormed := by
  cases h with
  | utf8 hlen hspells => exact ⟨hlen, hspells⟩
  | classRef hi => exact hi
  | memberRef hi hn => exact ⟨hi, hn⟩
  | uninterpreted hwidth => exact hwidth

theorem encode_eq (h : Stores e c) : c.encode = e.bytes := by
  cases h with
  | @memberRef kind => cases kind <;> rfl
  | _ => rfl

/-- An entry is read in one way only. -/
theorem unique {d : Constant} (h : Stores e c) (h' : Stores e d) : c = d := by
  have hread {c : Constant} (hc : Stores e c) : ∃ r, Constant.read ⟨e.bytes.toArray, 0⟩ = .ok (c, r) := by
    have hstart : Reader.Between ⟨e.bytes.toArray, 0⟩ [] (c.encode ++ []) := by
      rw [List.append_nil, hc.encode_eq]
      exact .start _
    obtain ⟨r, hr, -⟩ := Constant.exact_read.read_whole ⟨hc.wellFormed, rfl⟩ hstart
    exact ⟨r, hr⟩
  obtain ⟨r, hr⟩ := hread h
  obtain ⟨r', hr'⟩ := hread h'
  rw [hr] at hr'
  cases hr'
  rfl

theorem found_eq (h : Stores e c) : c.found = e.kind.found := by
  cases h with
  | @memberRef kind => cases kind <;> rfl
  | @uninterpreted kind payload hwidth => cases kind <;> first | rfl | cases hwidth
  | _ => rfl

theorem slots_eq (h : Stores e c) : e.kind.slots = if c.isWide then 2 else 1 := by
  cases h with
  | @memberRef kind => cases kind <;> rfl
  | @uninterpreted kind payload hwidth => cases kind <;> rfl
  | _ => rfl

theorem isWide_iff (h : Stores e c) : c.isWide = true ↔ e.kind.slots = 2 := by
  rw [h.slots_eq]
  cases c.isWide <;> decide

theorem isWide_eq_false_iff (h : Stores e c) : c.isWide = false ↔ e.kind.slots = 1 := by
  rw [h.slots_eq]
  cases c.isWide <;> decide

theorem isValid (h : Stores e c) : e.IsValid := by
  cases h with
  | @utf8 raw text hlen hspells => exact .inl ⟨text, rfl, raw, hlen, hspells, rfl⟩
  | classRef => exact .inr (by rw [length_numeral]; rfl)
  | @memberRef kind i n => exact .inr (by rw [List.length_append, length_numeral, length_numeral]; cases kind <;> rfl)
  | @uninterpreted kind payload hwidth => exact .inr (by cases kind <;> first | exact hwidth | cases hwidth)

end Stores

/-- Every valid entry is read as a constant. -/
theorem IsValid.exists_stores (h : e.IsValid) : ∃ c, Stores e c := by
  obtain ⟨kind, payload⟩ := e
  rcases h with ⟨text, rfl, raw, hlen, hspells, rfl⟩ | hwidth
  · exact ⟨_, .utf8 hlen hspells⟩
  · have member (kind : MemberKind) (hlen : payload.length = 4) : ∃ c, Stores ⟨kind.entryKind, payload⟩ c := by
      obtain ⟨i, hi, hfirst⟩ := exists_numeral (show (payload.take 2).length = 2 by simp [hlen])
      obtain ⟨n, hn, hsecond⟩ := exists_numeral (show (payload.drop 2).length = 2 by simp [hlen])
      rw [← List.take_append_drop 2 payload, hfirst, hsecond]
      exact ⟨_, .memberRef hi hn⟩
    have hlen : ∀ width, kind.width? = some width → payload.length = width := by
      intro width h
      exact (Option.some.inj (h.symm.trans hwidth)).symm
    cases kind with
    | utf8 => cases hwidth
    | classRef =>
      obtain ⟨i, hi, rfl⟩ := exists_numeral (hlen 2 rfl)
      exact ⟨_, .classRef hi⟩
    | fieldref => exact member .fieldref (hlen 4 rfl)
    | methodref => exact member .methodref (hlen 4 rfl)
    | interfaceMethodref => exact member .interfaceMethodref (hlen 4 rfl)
    | _ => exact ⟨_, .uninterpreted hwidth⟩

/-- Every constant that can be stored is stored in an entry. -/
theorem exists_stores_of_wellFormed (h : c.WellFormed) : ∃ e, Stores e c := by
  cases c with
  | utf8 raw text => exact ⟨_, .utf8 h.1 h.2⟩
  | classRef i => exact ⟨_, .classRef h⟩
  | memberRef kind i n => exact ⟨_, .memberRef h.1 h.2⟩
  | uninterpreted tag payload =>
    obtain ⟨kind, rfl⟩ := exists_kind_of_width h
    exact ⟨_, .uninterpreted h⟩

theorem isText_iff {text : Text} : e.IsText text ↔ ∃ raw, Stores e (.utf8 raw text) := by
  constructor
  · obtain ⟨kind, payload⟩ := e
    rintro ⟨rfl, raw, hlen, hspells, rfl⟩
    exact ⟨raw, .utf8 hlen hspells⟩
  · rintro ⟨raw, h⟩
    cases h with
    | utf8 hlen hspells => exact ⟨rfl, raw, hlen, hspells, rfl⟩

theorem isClass_iff {i : Nat} : e.IsClass i ↔ Stores e (.classRef i) := by
  constructor
  · obtain ⟨kind, payload⟩ := e
    rintro ⟨rfl, hi, rfl⟩
    exact .classRef hi
  · intro h
    cases h with
    | classRef hi => exact ⟨rfl, hi, rfl⟩

theorem isMember_iff {i : Nat} : e.IsMember i ↔ ∃ kind n, Stores e (.memberRef kind i n) := by
  constructor
  · obtain ⟨kind, payload⟩ := e
    rintro ⟨hkind, hi, other, hother, rfl⟩
    obtain ⟨n, hn, rfl⟩ := exists_numeral hother
    have hmember : ∃ member : MemberKind, kind = member.entryKind := by
      simp only [List.mem_cons, List.not_mem_nil, or_false] at hkind
      rcases hkind with rfl | rfl | rfl
      · exact ⟨.fieldref, rfl⟩
      · exact ⟨.methodref, rfl⟩
      · exact ⟨.interfaceMethodref, rfl⟩
    obtain ⟨member, rfl⟩ := hmember
    exact ⟨member, n, .memberRef hi hn⟩
  · rintro ⟨kind, n, h⟩
    cases h with
    | memberRef hi hn => exact ⟨by cases kind <;> simp [MemberKind.entryKind], hi, _, length_numeral 2 n, rfl⟩

end PoolEntry

/-! ### Entries in slots -/

open PoolEntry (Stores)

variable {entries : List PoolEntry} {slots : List (Option Constant)}

theorem span_cons (e : PoolEntry) (entries : List PoolEntry) : span (e :: entries) = e.kind.slots + span entries :=
  rfl

theorem StartsAt.pos {i : Int} {e : PoolEntry} (h : StartsAt entries i e) : 0 < i := by
  obtain ⟨before, after, -, rfl⟩ := h
  omega

theorem startsAt_cons {d e : PoolEntry} {i : Int} :
    StartsAt (d :: entries) i e ↔ (i = 1 ∧ e = d) ∨ StartsAt entries (i - d.kind.slots) e := by
  constructor
  · rintro ⟨before, after, heq, rfl⟩
    cases before with
    | nil =>
      obtain ⟨rfl, rfl⟩ := List.cons.inj heq
      exact .inl ⟨rfl, rfl⟩
    | cons b before =>
      obtain ⟨rfl, rfl⟩ := List.cons.inj heq
      refine .inr ⟨before, after, rfl, ?_⟩
      rw [span_cons]
      omega
  · rintro (⟨rfl, rfl⟩ | ⟨before, after, rfl, hi⟩)
    · exact ⟨[], entries, rfl, rfl⟩
    · refine ⟨d :: before, after, rfl, ?_⟩
      rw [span_cons]
      omega

/-- Entries and the slots that they fill when they are read. -/
inductive Placed : List PoolEntry → List (Option Constant) → Prop where
  /-- No slot is left. -/
  | nil : Placed [] []
  /-- An entry that takes one slot. -/
  | narrow {e : PoolEntry} {c : Constant} {entries : List PoolEntry} {slots : List (Option Constant)} : Stores e c →
    e.kind.slots = 1 → Placed entries slots → Placed (e :: entries) (some c :: slots)
  /-- An entry that takes two slots. -/
  | wide {e : PoolEntry} {c : Constant} {entries : List PoolEntry} {slots : List (Option Constant)} : Stores e c →
    e.kind.slots = 2 → Placed entries slots → Placed (e :: entries) (some c :: none :: slots)
  /-- An entry that would take two slots, in the last one. -/
  | last {e : PoolEntry} {c : Constant} : Stores e c → e.kind.slots = 2 → Placed [e] [some c]

namespace Placed

theorem filled (h : Placed entries slots) : Pool.Filled slots := by
  induction h with
  | nil => exact .nil
  | narrow hc hone _ ih => exact .narrow hc.wellFormed (hc.isWide_eq_false_iff.2 hone) ih
  | wide hc htwo _ ih => exact .wide hc.wellFormed (hc.isWide_iff.2 htwo) ih
  | last hc htwo => exact .last hc.wellFormed (hc.isWide_iff.2 htwo)

theorem flatMap_eq (h : Placed entries slots) : slots.flatMap Pool.encodeSlot = entries.flatMap PoolEntry.bytes := by
  induction h with
  | nil => rfl
  | narrow hc _ _ ih => rw [List.flatMap_cons, List.flatMap_cons, ih, Pool.encodeSlot, Option.elim_some, hc.encode_eq]
  | wide hc _ _ ih =>
    rw [List.flatMap_cons, List.flatMap_cons, List.flatMap_cons, ih, Pool.encodeSlot, Option.elim_some, hc.encode_eq]
    rfl
  | last hc _ => rw [List.flatMap_singleton, List.flatMap_singleton, Pool.encodeSlot, Option.elim_some, hc.encode_eq]

theorem valid (h : Placed entries slots) : ∀ e ∈ entries, e.IsValid := by
  induction h with
  | nil => simp
  | narrow hc _ _ ih => exact List.forall_mem_cons.2 ⟨hc.isValid, ih⟩
  | wide hc _ _ ih => exact List.forall_mem_cons.2 ⟨hc.isValid, ih⟩
  | last hc _ => exact List.forall_mem_cons.2 ⟨hc.isValid, by simp⟩

end Placed

theorem Fill.cons {n : Nat} {e : PoolEntry} (h : Fill n entries) : Fill (e.kind.slots + n) (e :: entries) := by
  rcases h with hspan | ⟨hspan, last, hlast, htwo⟩
  · left
    rw [span_cons, hspan]
  · refine .inr ⟨by rw [span_cons, hspan, Nat.add_assoc], last, ?_, htwo⟩
    rw [List.getLast?_cons, hlast]
    rfl

/-- The first of the entries that fill slots leaves some for the others, or it is the last and wants one more. -/
theorem fill_cons_iff {n : Nat} {e : PoolEntry} : Fill n (e :: entries) ↔
    (∃ left, n = e.kind.slots + left ∧ Fill left entries) ∨ (n = 1 ∧ e.kind.slots = 2 ∧ entries = []) := by
  constructor
  · rintro (hspan | ⟨hspan, last, hlast, htwo⟩)
    · exact .inl ⟨span entries, hspan.symm, .inl rfl⟩
    · rw [span_cons] at hspan
      cases entries with
      | nil =>
        obtain rfl : e = last := by simpa using hlast
        have hzero : span [] = 0 := rfl
        exact .inr ⟨by omega, htwo, rfl⟩
      | cons d entries =>
        have hle : 1 ≤ span (d :: entries) := by
          have hone : 1 ≤ d.kind.slots := by cases d.kind <;> decide
          rw [span_cons]
          omega
        refine .inl ⟨span (d :: entries) - 1, by omega, .inr ⟨by omega, last, ?_, htwo⟩⟩
        rwa [List.getLast?_cons_cons] at hlast
  · rintro (⟨left, rfl, hfill⟩ | ⟨rfl, htwo, rfl⟩)
    · exact hfill.cons
    · exact .inr ⟨htwo, e, rfl, htwo⟩

/-- Entries that are placed fill the slots. -/
theorem Placed.fill (h : Placed entries slots) : Fill slots.length entries := by
  induction h with
  | nil => exact .inl rfl
  | narrow hc hone _ ih => exact fill_cons_iff.2 (.inl ⟨_, by rw [hone, List.length_cons, Nat.add_comm], ih⟩)
  | wide hc htwo _ ih => exact fill_cons_iff.2 (.inl ⟨_, by simp only [htwo, List.length_cons]; omega, ih⟩)
  | last hc htwo => exact fill_cons_iff.2 (.inr ⟨rfl, htwo, rfl⟩)

/-- Valid entries are placed in the slots that they fill. -/
theorem Fill.exists_placed {n : Nat} (h : Fill n entries) (hvalid : ∀ e ∈ entries, e.IsValid) :
    ∃ slots, slots.length = n ∧ Placed entries slots := by
  induction entries generalizing n with
  | nil =>
    rcases h with hspan | ⟨-, last, hlast, -⟩
    · exact ⟨[], hspan, .nil⟩
    · cases hlast
  | cons e entries ih =>
    obtain ⟨he, hentries⟩ := List.forall_mem_cons.1 hvalid
    obtain ⟨c, hc⟩ := he.exists_stores
    rcases fill_cons_iff.1 h with ⟨left, rfl, hleft⟩ | ⟨rfl, htwo, rfl⟩
    · obtain ⟨slots, rfl, hplaced⟩ := ih hleft hentries
      cases hwide : c.isWide with
      | false =>
        have hone := hc.isWide_eq_false_iff.1 hwide
        exact ⟨some c :: slots, by rw [hone, List.length_cons, Nat.add_comm], .narrow hc hone hplaced⟩
      | true =>
        have htwo := hc.isWide_iff.1 hwide
        exact ⟨some c :: none :: slots, by simp only [htwo, List.length_cons]; omega, .wide hc htwo hplaced⟩
    · exact ⟨[some c], rfl, .last hc htwo⟩

/-- Slots that are filled hold entries. -/
theorem exists_placed_of_filled (h : Pool.Filled slots) : ∃ entries, Placed entries slots := by
  induction h with
  | nil => exact ⟨[], .nil⟩
  | narrow hwf hwide _ ih =>
    obtain ⟨entries, hplaced⟩ := ih
    obtain ⟨e, he⟩ := PoolEntry.exists_stores_of_wellFormed hwf
    exact ⟨e :: entries, .narrow he (he.isWide_eq_false_iff.1 hwide) hplaced⟩
  | wide hwf hwide _ ih =>
    obtain ⟨entries, hplaced⟩ := ih
    obtain ⟨e, he⟩ := PoolEntry.exists_stores_of_wellFormed hwf
    exact ⟨e :: entries, .wide he (he.isWide_iff.1 hwide) hplaced⟩
  | last hwf hwide =>
    obtain ⟨e, he⟩ := PoolEntry.exists_stores_of_wellFormed hwf
    exact ⟨[e], .last he (he.isWide_iff.1 hwide)⟩

end Coupling.ClassFile
