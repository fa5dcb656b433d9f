import Coupling.Proofs.CodeReading
import Coupling.Proofs.PoolReading

/-!
# Reading a class file

The parts of a class file are read exactly as they are laid out, from the smallest to the whole. References are looked up
on the way, and whether they lead anywhere changes nothing of what is read, with one exception: the name of the class
itself must be found.
-/

namespace Coupling.ClassFile

open Decoder

/-! ### Fields and attributes -/

theorem RawAttribute.exact_read : Exact (ofRead RawAttribute.read) (Meaning.of WellFormed encode) := by
  refine (exact_u2.read_bind fun nameIndex => exact_u4.read_bind fun length => (exact_bytes length).read_bind fun body =>
    Exact.read_pure (mk nameIndex body)).congr fun before bytes a => ?_
  simp only [Meaning.seq_of, Meaning.behind_seq_of, Meaning.behind_nothing, List.append_assoc]
  constructor
  · rintro ⟨nameIndex, hname, length, hlength, body, hlen, rfl, rfl⟩
    obtain rfl : body.length = length := by omega
    exact ⟨⟨hname, hlength⟩, rfl⟩
  · rintro ⟨⟨hname, hbody⟩, rfl⟩
    exact ⟨a.nameIndex, hname, a.body.length, hbody, a.body, rfl, rfl, rfl⟩

theorem RawAttribute.exact_readAll :
    Exact (ofRead RawAttribute.readAll) (Meaning.of (IsTable WellFormed) (table encode)) :=
  exact_read_table exact_read

theorem RawField.exact_read : Exact (ofRead RawField.read) (Meaning.of WellFormed encode) := by
  refine ((exact_bytes 6).read_bind fun header => RawAttribute.exact_readAll.read_bind fun attributes =>
    Exact.read_pure (mk header attributes)).congr fun before bytes f => ?_
  simp only [Meaning.seq_of, Meaning.behind_seq_of, Meaning.behind_nothing]
  constructor
  · rintro ⟨header, hheader, attributes, hattributes, rfl, rfl⟩
    exact ⟨⟨Int.ofNat_inj.1 hheader, hattributes⟩, rfl⟩
  · rintro ⟨⟨hheader, hattributes⟩, rfl⟩
    exact ⟨f.header, Int.ofNat_inj.2 hheader, f.attributes, hattributes, rfl, rfl⟩

/-! ### Code -/

theorem RawLocal.exact_decode (pool : Pool) (place : Text) :
    Exact (RawLocal.decode pool place) (Meaning.of WellFormed encode) := by
  unfold RawLocal.decode
  refine ((exact_bytes 4).bind fun range => (exact_bytes 2).bind fun nameIndex => exact_u2.bind fun descriptorIndex =>
    Exact.after_quiet (quiet_resolve _ _ _) ((exact_bytes 2).bind (S := fun slot =>
      Meaning.nothing ⟨range ++ nameIndex, descriptorIndex, slot⟩) fun slot => ?_)).congr fun before bytes v => ?_
  · dsimp only
    split
    · split
      · exact .after_quiet (quiet_note _) (.pure _)
      · exact .pure _
    · exact .pure _
  · simp only [Meaning.seq_of, Meaning.behind_seq_of, Meaning.behind_nothing]
    constructor
    · rintro ⟨range, hrange, name, hname, index, hindex, slot, hslot, rfl, rfl⟩
      refine ⟨⟨?_, hindex, Int.ofNat_inj.1 hslot⟩, List.append_assoc ..⟩
      rw [List.length_append]
      omega
    · rintro ⟨⟨hheader, hindex, hslot⟩, rfl⟩
      have hrange : ((v.header.take 4).length : Int) = 4 := by
        rw [List.length_take]
        omega
      have hname : ((v.header.drop 4).length : Int) = 2 := by
        rw [List.length_drop]
        omega
      refine ⟨_, hrange, _, hname, v.descriptorIndex, hindex, v.slot, Int.ofNat_inj.2 hslot, ?_⟩
      rw [List.take_append_drop, List.append_assoc]
      exact ⟨rfl, rfl⟩

namespace RawCodeAttribute

/-- The attribute that a name and a content stand for. -/
def Content (pool : Pool) (nameIndex : Nat) (body : List UInt8) : Meaning RawCodeAttribute := fun _ bytes a =>
  bytes = [] ∧ a.nameIndex = nameIndex ∧ a.body = body ∧ a.Fits pool

theorem exact_locals {pool : Pool} {nameIndex : Nat} (place : Text) (body : List UInt8)
    (hname : pool.HasText nameIndex localsName) :
    Exact (within body (ofRead Reader.u2 >>= fun n => repeated (RawLocal.decode pool place) n) >>= fun p =>
      pure (locals nameIndex p.1 p.2)) (Content pool nameIndex body) := by
  refine (exact_within_pure (exact_table (RawLocal.exact_decode pool place)) body (locals nameIndex)).congr
    fun before bytes a => ?_
  constructor
  · rintro ⟨entries, _, slack, ⟨hentries, rfl⟩, rfl, rfl, rfl⟩
    exact ⟨rfl, rfl, rfl, hname, hentries⟩
  · rintro ⟨rfl, rfl, rfl, hfits⟩
    cases a with
    | locals index entries slack => exact ⟨entries, _, slack, ⟨hfits.2, rfl⟩, rfl, rfl, rfl⟩
    | other content => exact absurd hname hfits

theorem exact_other {pool : Pool} {nameIndex : Nat} (body : List UInt8) (hname : ¬ pool.HasText nameIndex localsName) :
    Exact (pure (other ⟨nameIndex, body⟩)) (Content pool nameIndex body) := by
  refine (Exact.pure (other ⟨nameIndex, body⟩)).congr fun before bytes a => ?_
  constructor
  · rintro ⟨rfl, rfl⟩
    exact ⟨rfl, rfl, rfl, hname⟩
  · rintro ⟨rfl, rfl, rfl, hfits⟩
    cases a with
    | locals index entries slack => exact absurd hfits.1 hname
    | other content => exact ⟨rfl, rfl⟩

theorem exact_decode (pool : Pool) (place : Text) :
    Exact (RawCodeAttribute.decode pool place) (Meaning.of (WellFormed pool) encode) := by
  unfold RawCodeAttribute.decode
  -- The content is all there before its layout is looked at.
  refine (exact_u2.bind fun nameIndex => Exact.after_quiet (quiet_resolve _ _ _)
    (exact_block_bind (S := Content pool nameIndex) fun body => ?_)).congr fun before bytes a => ?_
  · split
    · next hname => exact exact_locals place body (Pool.toOption_utf8_eq_some.1 hname)
    · next hname => exact exact_other body fun h => hname (Pool.toOption_utf8_eq_some.2 h)
  · simp only [Meaning.seq_of, Meaning.behind_seq_of]
    constructor
    · rintro ⟨nameIndex, hindex, body, hbody, _, ⟨rfl, rfl, rfl, hfits⟩, rfl⟩
      exact ⟨⟨hindex, hbody, hfits⟩, List.append_nil _⟩
    · rintro ⟨⟨hindex, hbody, hfits⟩, rfl⟩
      exact ⟨a.nameIndex, hindex, a.body, hbody, [], ⟨rfl, rfl, rfl, hfits⟩, (List.append_nil _).symm⟩

end RawCodeAttribute

/-- What follows the bytecode within a code attribute. -/
def RawCode.After (pool : Pool) (limits bytecode : List UInt8) : Meaning RawCode := fun _ bytes c =>
  (c.limits = limits ∧ c.bytecode = bytecode ∧ c.slack = []) ∧ Instruction.Laid 0 c.instructions ∧
    IsEntries 8 c.handlers ∧ IsTable (RawCodeAttribute.WellFormed pool) c.attributes ∧
    bytes = entries 8 c.handlers ++ table RawCodeAttribute.encode c.attributes

theorem RawCode.exact_decode (pool : Pool) (place : Text) : Exact (RawCode.decode pool place)
    fun _ bytes c => c.WellFormed pool ∧ c.slack = [] ∧ bytes = c.content := by
  unfold RawCode.decode
  refine ((exact_bytes 4).bind fun limits => exact_block_bind (S := After pool limits) fun bytecode =>
    Exact.after_quiet (quiet_forIn fun ref => quiet_discard (quiet_resolve _ _ _)) ?_).congr fun before bytes c => ?_
  · cases hwalk : Walk.ofCode bytecode with
    | mk instructions fault =>
      cases fault with
      | some f =>
        refine (Exact.throw f).congr fun before bytes c => ?_
        constructor
        · exact False.elim
        · rintro ⟨⟨-, hbytecode, -⟩, hlaid, -⟩
          rw [Walk.ofCode_eq_iff.2 ⟨hlaid, hbytecode.symm⟩] at hwalk
          cases hwalk
      | none =>
        refine (exact_entries_bind 8 (by decide) fun handlers =>
          exact_table_bind (RawCodeAttribute.exact_decode pool place) fun attributes =>
            Exact.pure (mk limits instructions handlers attributes [])).congr fun before bytes c => ?_
        simp only [Meaning.seq_of, Meaning.behind_seq_of, Meaning.behind_nothing]
        constructor
        · rintro ⟨handlers, hhandlers, attributes, hattributes, rfl, rfl⟩
          obtain ⟨hlaid, hbytecode⟩ := Walk.ofCode_eq_iff.1 hwalk
          exact ⟨⟨rfl, hbytecode.symm, rfl⟩, hlaid, hhandlers, hattributes, rfl⟩
        · rintro ⟨⟨rfl, hbytecode, hslack⟩, hlaid, hhandlers, hattributes, rfl⟩
          rw [Walk.ofCode_eq_iff.2 ⟨hlaid, hbytecode.symm⟩] at hwalk
          cases hwalk
          obtain ⟨limits, instructions, handlers, attributes, slack⟩ := c
          obtain rfl : slack = [] := hslack
          exact ⟨handlers, hhandlers, attributes, hattributes, rfl, rfl⟩
  · simp only [Meaning.seq_of, Meaning.behind_seq_of]
    constructor
    · rintro ⟨limits, hlimits, bytecode, hcode, _, ⟨⟨rfl, rfl, hslack⟩, hlaid, hhandlers, hattributes, rfl⟩, rfl⟩
      exact ⟨⟨Int.ofNat_inj.1 hlimits, hlaid, hcode, hhandlers, hattributes⟩, hslack, List.append_assoc ..⟩
    · rintro ⟨⟨hlimits, hlaid, hcode, hhandlers, hattributes⟩, hslack, rfl⟩
      exact ⟨c.limits, Int.ofNat_inj.2 hlimits, c.bytecode, hcode, _,
        ⟨⟨rfl, rfl, hslack⟩, hlaid, hhandlers, hattributes, rfl⟩, (List.append_assoc ..).symm⟩

/-! ### Methods -/

theorem exact_decodeExceptions (pool : Pool) (place : Text) : Exact (decodeExceptions pool place)
    (Meaning.of (IsTable (· < 2 ^ 16)) (table (numeral 2))) := by
  refine exact_table ((exact_u2.bind fun index => Exact.after_quiet (quiet_discard (quiet_resolve _ _ _))
    (Exact.pure index)).congr fun before bytes index => ?_)
  simp only [Meaning.seq_of, Meaning.behind_nothing]
  constructor
  · rintro ⟨index, hindex, rfl, rfl⟩
    exact ⟨hindex, rfl⟩
  · rintro ⟨hindex, rfl⟩
    exact ⟨index, hindex, rfl, rfl⟩

theorem exceptionsName_ne_codeName : exceptionsName ≠ codeName := by decide

namespace RawMethodAttribute

/-- The attribute that a name and a content stand for. -/
def Content (pool : Pool) (nameIndex : Nat) (body : List UInt8) : Meaning RawMethodAttribute := fun _ bytes a =>
  bytes = [] ∧ a.nameIndex = nameIndex ∧ a.body = body ∧ a.Fits pool

theorem exact_exceptions {pool : Pool} {nameIndex : Nat} (place : Text) (body : List UInt8)
    (hname : pool.HasText nameIndex exceptionsName) :
    Exact (within body (decodeExceptions pool place) >>= fun p => pure (exceptions nameIndex p.1 p.2))
      (Content pool nameIndex body) := by
  refine (exact_within_pure (exact_decodeExceptions pool place) body (exceptions nameIndex)).congr
    fun before bytes a => ?_
  constructor
  · rintro ⟨indices, _, slack, ⟨hindices, rfl⟩, rfl, rfl, rfl⟩
    exact ⟨rfl, rfl, rfl, hname, hindices⟩
  · rintro ⟨rfl, rfl, rfl, hfits⟩
    cases a with
    | exceptions index indices slack => exact ⟨indices, _, slack, ⟨hfits.2, rfl⟩, rfl, rfl, rfl⟩
    | code index content => exact absurd (hname.unique hfits.1) exceptionsName_ne_codeName
    | other content => exact absurd hname hfits.1

theorem exact_code {pool : Pool} {nameIndex : Nat} (place : Text) (body : List UInt8)
    (hname : pool.HasText nameIndex codeName) :
    Exact (within body (RawCode.decode pool place) >>= fun p => pure (code nameIndex { p.1 with slack := p.2 }))
      (Content pool nameIndex body) := by
  refine (exact_within_pure (RawCode.exact_decode pool place) body fun content slack =>
    code nameIndex { content with slack }).congr fun before bytes a => ?_
  constructor
  · rintro ⟨content, _, slack, ⟨hcontent, hslack, rfl⟩, rfl, rfl, rfl⟩
    obtain ⟨hlimits, hlaid, hcode, hhandlers, hattributes⟩ := hcontent
    exact ⟨rfl, rfl, rfl, hname, ⟨hlimits, hlaid, hcode, hhandlers, hattributes⟩⟩
  · rintro ⟨rfl, rfl, rfl, hfits⟩
    cases a with
    | exceptions index indices slack => exact absurd (hfits.1.unique hname) exceptionsName_ne_codeName
    | code index content =>
      obtain ⟨-, hlimits, hlaid, hcode, hhandlers, hattributes⟩ := hfits
      have hcontent : ({ content with slack := [] } : RawCode).WellFormed pool :=
        ⟨hlimits, hlaid, hcode, hhandlers, hattributes⟩
      exact ⟨_, _, content.slack, ⟨hcontent, rfl, rfl⟩, rfl, rfl, rfl⟩
    | other content => exact absurd hname hfits.2

theorem exact_other {pool : Pool} {nameIndex : Nat} (body : List UInt8)
    (hexceptions : ¬ pool.HasText nameIndex exceptionsName) (hcode : ¬ pool.HasText nameIndex codeName) :
    Exact (pure (other ⟨nameIndex, body⟩)) (Content pool nameIndex body) := by
  refine (Exact.pure (other ⟨nameIndex, body⟩)).congr fun before bytes a => ?_
  constructor
  · rintro ⟨rfl, rfl⟩
    exact ⟨rfl, rfl, rfl, hexceptions, hcode⟩
  · rintro ⟨rfl, rfl, rfl, hfits⟩
    cases a with
    | exceptions index indices slack => exact absurd hfits.1 hexceptions
    | code index content => exact absurd hfits.1 hcode
    | other content => exact ⟨rfl, rfl⟩

theorem exact_decode (pool : Pool) (place : Text) :
    Exact (RawMethodAttribute.decode pool place) (Meaning.of (WellFormed pool) encode) := by
  unfold RawMethodAttribute.decode
  refine (exact_u2.bind fun nameIndex => Exact.after_quiet (quiet_resolve _ _ _) (exact_u4.bind fun length =>
    Exact.checked ((exact_bytes length).bind (S := Content pool nameIndex) fun body => ?_) ?_ ?_)).congr
    fun before bytes a => ?_
  · split
    · next hname => exact exact_exceptions place body (Pool.toOption_utf8_eq_some.1 hname)
    · next hexceptions =>
      split
      · next hname => exact exact_code place body (Pool.toOption_utf8_eq_some.1 hname)
      · next hcode =>
        exact exact_other body (fun h => hexceptions (Pool.toOption_utf8_eq_some.2 h))
          (fun h => hcode (Pool.toOption_utf8_eq_some.2 h))
  · intro s hshort
    exact ⟨_, _, bind_error (ofRead_error (bytes_short (.inr hshort)))⟩
  · exact fun _ => rfl
  · simp only [Meaning.seq_of, Meaning.behind_seq_of, List.append_assoc]
    constructor
    · rintro ⟨nameIndex, hname, length, hlength, body, hbody, _, ⟨rfl, rfl, rfl, hfits⟩, rfl⟩
      obtain rfl : a.body.length = length := by omega
      exact ⟨⟨hname, hlength, hfits⟩, List.append_nil _⟩
    · rintro ⟨⟨hname, hbody, hfits⟩, rfl⟩
      exact ⟨a.nameIndex, hname, a.body.length, hbody, a.body, rfl, [], ⟨rfl, rfl, rfl, hfits⟩, (List.append_nil _).symm⟩

end RawMethodAttribute

theorem RawMethod.exact_decode (pool : Pool) (owner : Text) :
    Exact (RawMethod.decode pool owner) (Meaning.of (WellFormed pool) encode) := by
  unfold RawMethod.decode
  refine ((exact_bytes 2).bind fun flags => exact_u2.bind fun nameIndex => Exact.after_quiet (quiet_resolve _ _ _)
    (exact_u2.bind fun descriptorIndex => Exact.after_quiet (quiet_resolve _ _ _)
      (exact_table_bind (RawMethodAttribute.exact_decode pool _)
        (S := fun attributes => Meaning.nothing ⟨flags, nameIndex, descriptorIndex, attributes⟩)
        fun attributes => ?_))).congr fun before bytes m => ?_
  · dsimp only
    split
    · split
      · split
        · exact .after_quiet (quiet_note _) (.pure _)
        · exact .pure _
      · exact .pure _
    · exact .pure _
  · simp only [Meaning.seq_of, Meaning.behind_seq_of, Meaning.behind_nothing, List.append_assoc]
    constructor
    · rintro ⟨flags, hflags, nameIndex, hname, descriptorIndex, hdescriptor, attributes, hattributes, rfl, rfl⟩
      exact ⟨⟨Int.ofNat_inj.1 hflags, hname, hdescriptor, hattributes⟩, rfl⟩
    · rintro ⟨⟨hflags, hname, hdescriptor, hattributes⟩, rfl⟩
      exact ⟨m.flags, Int.ofNat_inj.2 hflags, m.nameIndex, hname, m.descriptorIndex, hdescriptor, m.attributes, hattributes,
        rfl, rfl⟩

/-! ### Classes -/

namespace RawClass

/-- What follows the index of the class that a class extends. -/
def Members (pool : Pool) (thisIndex : Nat)
    (build : List UInt8 → List RawField → List RawMethod → List RawAttribute → RawClass) :
    Meaning (RawClass × Text) := fun _ bytes p =>
  pool.HasClass thisIndex p.2 ∧ ∃ interfaces fields methods attributes,
    p.1 = build interfaces fields methods attributes ∧ IsEntries 2 interfaces ∧ IsTable RawField.WellFormed fields ∧
    IsTable (RawMethod.WellFormed pool) methods ∧ IsTable RawAttribute.WellFormed attributes ∧
    bytes = entries 2 interfaces ++ (table RawField.encode fields ++ (table RawMethod.encode methods ++
      table RawAttribute.encode attributes))

/-- The members are read exactly, once the name of the class is found. -/
theorem exact_members {pool : Pool} {thisIndex : Nat} {name : Text} (hclass : pool.HasClass thisIndex name)
    (build : List UInt8 → List RawField → List RawMethod → List RawAttribute → RawClass)
    (remark : List RawMethod → Note) :
    Exact (do
      let interfaces ← Reader.bytes (2 * (← Reader.u2))
      let fields ← repeated (RawField.read : Decoder RawField) (← Reader.u2)
      let methods ← repeated (RawMethod.decode pool name) (← Reader.u2)
      let attributes ← RawAttribute.readAll
      note (remark methods)
      pure (build interfaces fields methods attributes, name)) (Members pool thisIndex build) := by
  refine (exact_entries_bind 2 (by decide) fun interfaces => exact_table_bind RawField.exact_read fun fields =>
    exact_table_bind (RawMethod.exact_decode pool name) fun methods => RawAttribute.exact_readAll.bind fun attributes =>
      Exact.after_quiet (quiet_note _) (Exact.pure (build interfaces fields methods attributes, name))).congr
    fun before bytes p => ?_
  simp only [Meaning.seq_of, Meaning.behind_seq_of, Meaning.behind_nothing, List.append_assoc]
  constructor
  · rintro ⟨interfaces, hinterfaces, fields, hfields, methods, hmethods, attributes, hattributes, rfl, rfl⟩
    exact ⟨hclass, interfaces, fields, methods, attributes, rfl, hinterfaces, hfields, hmethods, hattributes, rfl⟩
  · obtain ⟨c, name'⟩ := p
    rintro ⟨hclass', interfaces, fields, methods, attributes, rfl, hinterfaces, hfields, hmethods, hattributes, rfl⟩
    obtain rfl : name' = name := hclass'.unique hclass
    exact ⟨interfaces, hinterfaces, fields, hfields, methods, hmethods, attributes, hattributes, rfl, rfl⟩

/-- What follows the number at the start of a class file. -/
def Rest : Meaning (RawClass × Text) := fun _ bytes p =>
  p.1.WellFormed ∧ p.1.pool.HasClass p.1.thisIndex p.2 ∧ numeral 4 magic ++ bytes = p.1.encode

/-- A class file is read exactly as it is laid out, if the name of its class is found. -/
theorem exact_decode : Exact RawClass.decode fun _ bytes p =>
    p.1.WellFormed ∧ p.1.pool.HasClass p.1.thisIndex p.2 ∧ bytes = p.1.encode := by
  unfold RawClass.decode
  refine (Exact.checked (exact_u4.bind (S := fun n before bytes p => n = magic ∧ Rest before bytes p) fun n => ?_)
    ?_ ?_).congr fun before bytes p => ?_
  · dsimp only
    split
    · next hne =>
      refine (Exact.throw _).congr fun before bytes p => ?_
      simp only [hne, false_and]
    · next hmagic =>
      refine (exact_u2.bind fun minor => exact_u2.bind fun major => Pool.exact_read.bind fun pool =>
        exact_u2.bind fun flags => exact_u2.bind fun thisIndex => (exact_bytes 2).bind (S := fun superIndex =>
          Members pool thisIndex (RawClass.mk minor major pool flags thisIndex superIndex)) fun superIndex => ?_).congr
        fun before bytes p => ?_
      · cases hname : pool.className thisIndex with
        | error f =>
          refine (Exact.throw _).congr fun before bytes p => ?_
          constructor
          · exact False.elim
          · rintro ⟨hclass, -⟩
            rw [Pool.className_eq_ok.2 hclass] at hname
            cases hname
        | ok name => exact exact_members (Pool.className_eq_ok.1 hname) _ _
      · simp only [Meaning.seq_of, Meaning.behind_seq_of, List.append_assoc]
        obtain ⟨c, name⟩ := p
        constructor
        · rintro ⟨minor, hminor, major, hmajor, pool, hpool, flags, hflags, thisIndex, hthis, superIndex, hsuper, _,
            hmembers, rfl⟩
          obtain ⟨hclass, interfaces, fields, methods, attributes, hc, hinterfaces, hfields, hmethods, hattributes, rfl⟩ :=
            hmembers
          obtain rfl := hc
          have hwf : (mk minor major pool flags thisIndex superIndex interfaces fields methods attributes).WellFormed :=
            ⟨hminor, hmajor, hpool, hflags, hthis, Int.ofNat_inj.1 hsuper, hinterfaces, hfields, hmethods, hattributes⟩
          exact ⟨not_not.1 hmagic, hwf, hclass, by simp [encode]⟩
        · rintro ⟨-, hwf, hclass, hencode⟩
          obtain rfl := List.append_cancel_left hencode
          have hmembers : Members c.pool c.thisIndex (mk c.minor c.major c.pool c.flags c.thisIndex c.superIndex) before _
              (c, name) := ⟨hclass, c.interfaces, c.fields, c.methods, c.attributes, rfl, hwf.interfaces, hwf.fields,
                hwf.methods, hwf.attributes, rfl⟩
          exact ⟨c.minor, hwf.minor, c.major, hwf.major, c.pool, hwf.pool, c.flags, hwf.flags, c.thisIndex, hwf.thisIndex,
            c.superIndex, Int.ofNat_inj.2 hwf.superIndex, _, hmembers, by simp⟩
  · intro s hshort
    exact ⟨_, _, bind_error (ofRead_error (u4_short hshort))⟩
  · exact fun _ => rfl
  · rw [Meaning.seq_of]
    constructor
    · rintro ⟨n, -, _, ⟨rfl, hwf, hname, hencode⟩, rfl⟩
      exact ⟨hwf, hname, hencode⟩
    · rintro ⟨hwf, hname, rfl⟩
      exact ⟨magic, by decide, _, ⟨rfl, hwf, hname, rfl⟩, rfl⟩

end RawClass

end Coupling.ClassFile
