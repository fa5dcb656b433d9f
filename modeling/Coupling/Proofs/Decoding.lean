import Coupling.Proofs.ClassReading
import Coupling.Proofs.Description

/-!
# Decoding class files

Three facts about decoding as a whole. A class file that is laid out is decoded to what it describes. What is decoded is a
class file that is laid out, possibly with bytes behind it. And no class file is cut short without notice, while the bytes
behind it are never looked at.
-/

namespace Coupling.ClassFile

variable {c : RawClass} {name : Text} {bytes : List UInt8} {d : ClassSummary}

/-! ### The decoder on a whole buffer -/

theorem outcome_encode_append (hc : c.WellFormed) (hname : c.pool.HasClass c.thisIndex name) (rest : List UInt8) :
    (decode (c.encode ++ rest)).outcome = .ok (c.summary name) := by
  have hreads : Reads RawClass.decode [] c.encode (c, name) := RawClass.exact_decode.reads ⟨hc, hname, rfl⟩
  obtain ⟨s, hrun, -⟩ := hreads.whole (s := ⟨⟨(c.encode ++ rest).toArray, 0⟩, []⟩) (.start _)
  rw [decode, hrun]

theorem exists_of_outcome (h : (decode bytes).outcome = .ok d) : ∃ (c : RawClass) (name : Text) (rest : List UInt8),
    bytes = c.encode ++ rest ∧ c.WellFormed ∧ c.pool.HasClass c.thisIndex name ∧ d = c.summary name := by
  unfold decode at h
  split at h
  · next c name s hrun =>
    obtain ⟨_, rest, ⟨hc, hname, rfl⟩, hbytes, -⟩ := RawClass.exact_decode.sound (.start bytes) hrun
    cases h
    exact ⟨c, name, rest, hbytes, hc, hname, rfl⟩
  · cases h

theorem outcome_of_prefix (hc : c.WellFormed) (hname : c.pool.HasClass c.thisIndex name) (hp : bytes <+: c.encode)
    (hne : bytes ≠ c.encode) : ∃ f, (decode bytes).outcome = .error f ∧ f.isMalformed = true := by
  have hreads : Reads RawClass.decode [] c.encode (c, name) := RawClass.exact_decode.reads ⟨hc, hname, rfl⟩
  obtain ⟨f, s, hrun, hf⟩ := hreads.cut (s := ⟨⟨bytes.toArray, 0⟩, []⟩) (.start bytes) hp hne
  refine ⟨f, ?_, hf⟩
  rw [decode, hrun]

/-! ### A class file -/

/-- The text of letters that are stored as they are. -/
def sampleText (text : String) : Constant := .utf8 (text.toList.map fun c => UInt8.ofNat c.toNat) text

/-- A class file with a constant that takes two slots, a switch behind padding, an exception that leads nowhere, and slack
in each attribute. -/
def sampleClass : RawClass where
  minor := 0
  major := 65
  pool := ⟨#[none, some (sampleText "a/A"), some (.classRef 1), some (sampleText "m"), some (sampleText "(J)V"),
    some (.uninterpreted 5 [0, 0, 0, 0, 0, 0, 0, 1]), none, some (sampleText "Code"), some (sampleText "Exceptions"),
    some (sampleText "LocalVariableTable"), some (sampleText "J")]⟩
  flags := 0x421
  thisIndex := 2
  superIndex := [0, 0]
  interfaces := [0, 2]
  fields := [⟨[0, 1, 0, 3, 0, 10], [⟨0, [1]⟩]⟩]
  methods := [⟨[0, 1], 3, 4,
    [.code 7
      { limits := [0, 2, 0, 3]
        instructions := [.reference 0xBB .type 2 [], .plain 0x57 [], .lookupSwitch [0, 0, 0] [0, 0, 0, 0] 1
          [0, 0, 0, 1, 0, 0, 0, 2], .plain 0xB1 []]
        handlers := [0, 0, 0, 3, 0, 4, 0, 2]
        attributes := [.locals 9 [⟨[0, 0, 0, 4, 0, 3], 10, [0, 1]⟩] [7], .other ⟨3, []⟩]
        slack := [255] },
      .exceptions 8 [2, 5] [9]]⟩]
  attributes := [⟨3, [1, 2]⟩]

theorem row_ascii {text : List Char} (h : ∀ c ∈ text, c.toNat < 0x80) :
    ModifiedUtf8.Row ModifiedUtf8.IsForm (text.map fun c => UInt8.ofNat c.toNat) (text.map CodePoint.ofChar) := by
  induction text with
  | nil => exact .nil
  | cons c text ih =>
    obtain ⟨hc, htext⟩ := List.forall_mem_cons.1 h
    have hbyte : (UInt8.ofNat c.toNat).toNat = c.toNat := by
      rw [UInt8.toNat_ofNat']
      omega
    have hform : ModifiedUtf8.IsForm [UInt8.ofNat c.toNat] (CodePoint.ofChar c) := .inl (.one (by omega) hbyte.symm)
    exact .cons hform (ih htext)

theorem joinPairs_of_not_isHigh {text : Text} (h : ∀ c ∈ text, ¬ c.IsHigh) : ModifiedUtf8.joinPairs text = text := by
  induction text with
  | nil => rfl
  | cons c text ih =>
    obtain ⟨hc, htext⟩ := List.forall_mem_cons.1 h
    cases text with
    | nil => rfl
    | cons d text => rw [ModifiedUtf8.joinPairs, if_neg fun h => hc h.1, ih htext]

theorem sampleText_wellFormed {text : String} (hlen : text.toList.length < 2 ^ 16)
    (h : text.toList.all (·.toNat < 0x80) = true) : (sampleText text).WellFormed := by
  have h : ∀ c ∈ text.toList, c.toNat < 0x80 := by simpa using h
  refine ⟨by simpa using hlen, _, row_ascii h, (joinPairs_of_not_isHigh fun c hc => ?_).symm⟩
  obtain ⟨char, hchar, rfl⟩ := List.mem_map.1 hc
  have hascii : (CodePoint.ofChar char).val < 0x80 := h char hchar
  exact fun hhigh => absurd hhigh.1 (by omega)

theorem sampleClass_pool : sampleClass.pool.WellFormed := by
  have htext {text : String} := @sampleText_wellFormed text
  refine ⟨by decide, _, rfl, ?_⟩
  refine .narrow (htext (by decide) rfl) rfl (.narrow (c := .classRef 1) (by decide : 1 < 2 ^ 16) rfl ?_)
  refine .narrow (htext (by decide) rfl) rfl (.narrow (htext (by decide) rfl) rfl ?_)
  refine .wide rfl rfl (.narrow (htext (by decide) rfl) rfl (.narrow (htext (by decide) rfl) rfl ?_))
  exact .narrow (htext (by decide) rfl) rfl (.narrow (htext (by decide) rfl) rfl .nil)

theorem sampleClass_methods : IsTable (RawMethod.WellFormed sampleClass.pool) sampleClass.methods := by
  refine ⟨by decide, List.forall_mem_singleton.2 ⟨rfl, by decide, by decide, by decide, ?_⟩⟩
  refine List.forall_mem_cons.2 ⟨⟨by decide, by decide, Pool.utf8_eq_ok.1 rfl, rfl, ?_, by decide, ⟨1, by decide, rfl⟩,
      by decide, List.forall_mem_cons.2 ⟨?_, List.forall_mem_singleton.2 ⟨by decide, by decide, ?_⟩⟩⟩,
    List.forall_mem_singleton.2 ⟨by decide, by decide, Pool.utf8_eq_ok.1 rfl, by decide, by decide⟩⟩
  · exact ⟨⟨rfl, by decide⟩, rfl, ⟨rfl, rfl, by decide, rfl⟩, rfl, trivial⟩
  · exact ⟨by decide, by decide, Pool.utf8_eq_ok.1 rfl, by decide, List.forall_mem_singleton.2 ⟨rfl, by decide, rfl⟩⟩
  · intro h
    have hname : sampleClass.pool.HasText 3 "m" := Pool.utf8_eq_ok.1 rfl
    exact absurd (h.unique hname) (by decide)

theorem sampleClass_wellFormed : sampleClass.WellFormed where
  minor := by decide
  major := by decide
  pool := sampleClass_pool
  flags := by decide
  thisIndex := by decide
  superIndex := by decide
  interfaces := ⟨1, by decide, by decide⟩
  fields := ⟨by decide, List.forall_mem_singleton.2 ⟨rfl, by decide, List.forall_mem_singleton.2 ⟨by decide, by decide⟩⟩⟩
  methods := sampleClass_methods
  attributes := ⟨by decide, List.forall_mem_singleton.2 ⟨by decide, by decide⟩⟩

theorem sampleClass_hasClass : sampleClass.pool.HasClass sampleClass.thisIndex "a.A" :=
  Pool.className_eq_ok.1 rfl

/-! ### What is decoded -/

/-- Decoding undoes assembling: a class file that is laid out, and whose own name is found, is decoded to the one thing
that it describes. -/
theorem decode_encode (hc : c.WellFormed) (hname : c.pool.HasClass c.thisIndex name) :
    ∃ d, (decode c.encode).outcome = .ok d ∧ d.name = name ∧ ∀ d', c.Describes d' ↔ d' = d := by
  refine ⟨c.summary name, ?_, rfl, fun d' => ?_⟩
  · simpa using outcome_encode_append hc hname []
  · rw [RawClass.describes_iff]
    constructor
    · rintro ⟨name', hname', rfl⟩
      rw [hname'.unique hname]
    · rintro rfl
      exact ⟨name, hname, rfl⟩

theorem decode_encode_sampleClass : sampleClass.WellFormed ∧
    sampleClass.pool.HasClass sampleClass.thisIndex "a.A" ∧ ∃ d, (decode sampleClass.encode).outcome = .ok d ∧
      d.name = "a.A" ∧ ∀ d', sampleClass.Describes d' ↔ d' = d :=
  ⟨sampleClass_wellFormed, sampleClass_hasClass, decode_encode sampleClass_wellFormed sampleClass_hasClass⟩

/-- Nothing but class files is decoded: what is decoded is laid out as a class file, except for bytes behind its end, and
is what this class file describes. -/
theorem outcome_eq_ok_iff : (decode bytes).outcome = .ok d ↔
    ∃ (c : RawClass) (rest : List UInt8), bytes = c.encode ++ rest ∧ c.WellFormed ∧ c.Describes d := by
  constructor
  · intro h
    obtain ⟨c, name, rest, rfl, hc, hname, rfl⟩ := exists_of_outcome h
    exact ⟨c, rest, rfl, hc, RawClass.describes_iff.2 ⟨name, hname, rfl⟩⟩
  · rintro ⟨c, rest, rfl, hc, hd⟩
    obtain ⟨name, hname, rfl⟩ := RawClass.describes_iff.1 hd
    exact outcome_encode_append hc hname rest

/-- A class file that ends too early is malformed wherever it ends, and what stands behind its end does not matter. -/
theorem exists_extent (h : (decode bytes).outcome = .ok d) : ∃ n ≤ bytes.length,
    (∀ k < n, ∃ f, (decode (bytes.take k)).outcome = .error f ∧ f.isMalformed = true) ∧
    ∀ rest, (decode (bytes.take n ++ rest)).outcome = .ok d := by
  obtain ⟨c, name, rest, rfl, hc, hname, rfl⟩ := exists_of_outcome h
  refine ⟨c.encode.length, by simp, fun k hk => ?_, fun rest' => ?_⟩
  · rw [List.take_append_of_le_length hk.le]
    refine outcome_of_prefix hc hname (List.take_prefix k _) fun heq => ?_
    have hlen := congrArg List.length heq
    rw [List.length_take] at hlen
    omega
  · rw [List.take_left]
    exact outcome_encode_append hc hname rest'

theorem exists_extent_sampleClass :
    (decode (sampleClass.encode ++ [0xCA, 0xFE])).outcome = .ok (sampleClass.summary "a.A") ∧
      ∃ n ≤ (sampleClass.encode ++ [0xCA, 0xFE]).length,
        (∀ k < n, ∃ f, (decode ((sampleClass.encode ++ [0xCA, 0xFE]).take k)).outcome = .error f ∧
          f.isMalformed = true) ∧
        ∀ rest, (decode ((sampleClass.encode ++ [0xCA, 0xFE]).take n ++ rest)).outcome =
          .ok (sampleClass.summary "a.A") :=
  have h := outcome_encode_append sampleClass_wellFormed sampleClass_hasClass [0xCA, 0xFE]
  ⟨h, exists_extent h⟩

end Coupling.ClassFile
