import Coupling.Proofs.InstructionStreams

/-!
# Code that is cut off

A walk over bytes that are no code still takes the instructions up to the first place where none stands. These are told by
the bytes alone: they are the longest row of whole instructions from the start. So when code is cut off anywhere, the walk
takes fewer instructions but no others, and never one that does not fit. How an instruction is laid out depends on its place
only modulo four. A method whose length is a multiple of four may therefore stand before any other bytes: the walk over both
is the walk over the first and then the walk over the second.
-/

namespace Coupling.ClassFile

/-- Bytes at an offset that begin with no instruction. -/
def Stuck (offset : Nat) (left : List UInt8) : Prop := ∀ first more, left = first ++ more → ¬ IsInstruction offset first

/-! ### Places modulo four -/

namespace Instruction

variable {offset shift : Nat} {i : Instruction} {is js : List Instruction}

theorem paddingWidth_add (h : 4 ∣ shift) : paddingWidth (shift + offset) = paddingWidth offset := by
  unfold paddingWidth
  omega

/-- An instruction can stand where it can stand a multiple of four bytes further on. -/
theorem wellFormed_add (h : 4 ∣ shift) : i.WellFormed (shift + offset) ↔ i.WellFormed offset := by
  cases i <;> simp only [WellFormed, paddingWidth_add h]

theorem laid_add (h : 4 ∣ shift) : Laid (shift + offset) is ↔ Laid offset is := by
  induction is generalizing offset with
  | nil => exact Iff.rfl
  | cons i is ih => simp only [Laid, wellFormed_add h, Nat.add_assoc, ih]

theorem laid_append : Laid offset (is ++ js) ↔ Laid offset is ∧ Laid (offset + (is.flatMap encode).length) js := by
  induction is generalizing offset with
  | nil => simp [Laid]
  | cons i is ih => simp [Laid, ih, and_assoc, Nat.add_assoc]

end Instruction

variable {offset : Nat} {code left : List UInt8} {is : List Instruction}

theorem stuck_iff :
    Stuck offset left ↔ ∀ (i : Instruction) (more : List UInt8), i.WellFormed offset → left ≠ i.encode ++ more := by
  constructor
  · intro h i more hwf heq
    exact h _ more heq (isInstruction_iff.2 ⟨i, hwf, rfl⟩)
  · intro h first more heq hfirst
    obtain ⟨i, hwf, rfl⟩ := isInstruction_iff.1 hfirst
    exact h i more hwf heq

theorem stuck_add {shift : Nat} (h : 4 ∣ shift) : Stuck (shift + offset) left ↔ Stuck offset left := by
  simp only [stuck_iff, Instruction.wellFormed_add h]

/-! ### The instructions of any bytes -/

/-- The instructions at the start of some bytes, up to a place where none stands, and the bytes from there on. -/
structure Takes (code : List UInt8) (is : List Instruction) (left : List UInt8) : Prop where
  laid : Instruction.Laid 0 is
  code : code = is.flatMap Instruction.encode ++ left
  stuck : Stuck (is.flatMap Instruction.encode).length left

/-- Whatever the bytes are, instructions lead to a place where none stands. -/
theorem exists_laid (offset : Nat) (code : List UInt8) : ∃ is left, Instruction.Laid offset is ∧
    code = is.flatMap Instruction.encode ++ left ∧ Stuck (offset + (is.flatMap Instruction.encode).length) left := by
  induction hn : code.length using Nat.strongRecOn generalizing offset code with
  | _ n ih =>
    by_cases hstuck : Stuck offset code
    · exact ⟨[], code, trivial, rfl, hstuck⟩
    · rw [stuck_iff] at hstuck
      push Not at hstuck
      obtain ⟨i, more, hwf, rfl⟩ := hstuck
      have hpos := List.length_pos_iff.2 i.encode_ne_nil
      rw [List.length_append] at hn
      obtain ⟨is, left, hlaid, rfl, hleft⟩ := ih _ (by omega) (offset + i.encode.length) more rfl
      refine ⟨i :: is, left, ⟨hwf, hlaid⟩, by simp, ?_⟩
      rw [List.flatMap_cons, List.length_append, ← Nat.add_assoc]
      exact hleft

theorem exists_takes (code : List UInt8) : ∃ is left, Takes code is left := by
  obtain ⟨is, left, hlaid, hcode, hstuck⟩ := exists_laid 0 code
  rw [Nat.zero_add] at hstuck
  exact ⟨is, left, hlaid, hcode, hstuck⟩

/-- A method whose length is a multiple of four may stand before any bytes. -/
theorem Takes.append {more : List UInt8} {js : List Instruction} (h : Takes code is [])
    (hmore : Takes more js left) (hfour : 4 ∣ code.length) : Takes (code ++ more) (is ++ js) left := by
  obtain ⟨hlaid, rfl, -⟩ := h
  obtain ⟨hlaid', rfl, hstuck⟩ := hmore
  rw [List.append_nil] at hfour ⊢
  refine ⟨Instruction.laid_append.2 ⟨hlaid, ?_⟩, by simp, ?_⟩
  · rw [Nat.zero_add, ← Nat.add_zero (List.length _)]
    exact (Instruction.laid_add hfour).2 hlaid'
  · rw [List.flatMap_append, List.length_append]
    exact (stuck_add hfour).2 hstuck

namespace Walk

open Instruction

/-- A walk takes an instruction that stands at its place. -/
theorem steps_cons {n : Nat} {r : Reader} {before after : List UInt8} {i : Instruction}
    (hr : r.Between before (i.encode ++ after)) (hwf : i.WellFormed before.length) :
    ∃ r', r'.Between (before ++ i.encode) after ∧
      steps (n + 1) r = ⟨i :: (steps n r').instructions, (steps n r').fault⟩ := by
  obtain ⟨r', hread, hr'⟩ := exact_read.read_whole ⟨hwf, rfl⟩ hr
  have hremaining : r.remaining ≠ 0 := by
    have hpos := List.length_pos_iff.2 i.encode_ne_nil
    rw [hr.remaining_eq, List.length_append]
    omega
  refine ⟨r', hr', ?_⟩
  rw [steps, if_neg hremaining, hread]

/-- A walk takes all instructions that stand at its place, one after the other, and goes on behind them. -/
theorem steps_append {n : Nat} {r : Reader} {before : List UInt8}
    (hr : r.Between before (is.flatMap encode ++ left)) (hlaid : Laid before.length is)
    (hn : (is.flatMap encode ++ left).length ≤ n) :
    ∃ m r', left.length ≤ m ∧ r'.Between (before ++ is.flatMap encode) left ∧
      steps n r = ⟨is ++ (steps m r').instructions, (steps m r').fault⟩ := by
  induction is generalizing n r before with
  | nil => exact ⟨n, r, hn, by simpa using hr, rfl⟩
  | cons i is ih =>
    have hpos := List.length_pos_iff.2 i.encode_ne_nil
    rw [List.flatMap_cons, List.append_assoc] at hr hn
    rw [List.length_append] at hn
    obtain ⟨n, rfl⟩ : ∃ k, n = k + 1 := ⟨n - 1, by omega⟩
    obtain ⟨r₁, hr₁, hsteps⟩ := steps_cons (n := n) hr hlaid.1
    have hrest : Laid (before ++ i.encode).length is := by
      rw [List.length_append]
      exact hlaid.2
    obtain ⟨m, r', hm, hr', hsteps'⟩ := ih (n := n) hr₁ hrest (by omega)
    refine ⟨m, r', hm, by simpa using hr', ?_⟩
    rw [hsteps, hsteps', List.cons_append]

/-- A walk ends where no instruction stands, with a fault unless this is the end of the code. -/
theorem steps_of_stuck {n : Nat} {r : Reader} {before : List UInt8} (hr : r.Between before left)
    (hstuck : Stuck before.length left) (hn : left.length ≤ n) :
    (steps n r).instructions = [] ∧ ((steps n r).fault = none ↔ left = []) := by
  by_cases hempty : left = []
  · subst hempty
    rw [steps_of_empty hr]
    simp
  · obtain ⟨n, rfl⟩ : ∃ k, n = k + 1 := by
      have hpos := List.length_pos_iff.2 hempty
      exact ⟨n - 1, by omega⟩
    have hremaining : r.remaining ≠ 0 := by
      have hpos := List.length_pos_iff.2 hempty
      rw [hr.remaining_eq]
      omega
    rw [steps, if_neg hremaining]
    cases hread : Instruction.read r with
    | error f => simp [hempty]
    | ok p =>
      obtain ⟨i, r'⟩ := p
      obtain ⟨_, rest, ⟨hwf, rfl⟩, heq, -⟩ := exact_read.read_sound hr hread
      exact absurd heq (stuck_iff.1 hstuck i rest hwf)

/-- A walk takes the instructions at the start of the code, whatever follows them. -/
theorem prefix_instructions (hlaid : Laid 0 is) (left : List UInt8) :
    is <+: (ofCode (is.flatMap encode ++ left)).instructions := by
  obtain ⟨m, r', -, -, hsteps⟩ := steps_append (.start _) hlaid le_rfl
  unfold ofCode
  rw [hsteps]
  exact List.prefix_append _ _

/-- A walk takes the instructions up to the first place where none stands, and ends there. -/
theorem ofCode_of_takes (h : Takes code is left) :
    (ofCode code).instructions = is ∧ ((ofCode code).fault = none ↔ left = []) := by
  obtain ⟨hlaid, rfl, hstuck⟩ := h
  obtain ⟨m, r', hm, hr', hsteps⟩ := steps_append (.start _) hlaid le_rfl
  obtain ⟨hnone, hfault⟩ := steps_of_stuck hr' (by simpa using hstuck) hm
  unfold ofCode
  rw [hsteps]
  refine ⟨?_, hfault⟩
  simp [hnone]

/-! ### Cut code and joined code -/

theorem takes_of_fault_eq_none (h : (ofCode code).fault = none) : Takes code (ofCode code).instructions [] := by
  obtain ⟨is, left, htakes⟩ := exists_takes code
  obtain ⟨rfl, hfault⟩ := ofCode_of_takes htakes
  obtain rfl := hfault.1 h
  exact htakes

/-- Code that is cut off holds fewer instructions, and no others. -/
theorem prefix_of_take (code : List UInt8) (k : Nat) : (ofCode (code.take k)).instructions <+: (ofCode code).instructions := by
  obtain ⟨is, left, htakes⟩ := exists_takes (code.take k)
  have hcode : code = is.flatMap encode ++ (left ++ code.drop k) := by
    rw [← List.append_assoc, ← htakes.code, List.take_append_drop]
  rw [(ofCode_of_takes htakes).1]
  rw [hcode]
  exact prefix_instructions htakes.laid _

/-- Walks over bytes that may be cut off or go on. Over the first bytes of some code, a walk names the first of the classes
that the walk over all of it names. What it names is told by whole instructions, taken from the start up to the first place
where none stands, and it ends with a fault unless this is the end of the code. If code is taken to its end and its length is
a multiple of four, the walk over it and any further bytes names what the two walks name, one after the other, and ends with
a fault just if the walk over the further bytes does. -/
theorem ofCode_truncation (code : List UInt8) :
    (∀ k, (ofCode (code.take k)).refs <+: (ofCode code).refs) ∧
    (∃ pieces left, code = pieces.flatten ++ left ∧ Divided 0 pieces.flatten pieces ∧ Stuck pieces.flatten.length left ∧
      (ofCode code).refs = pieces.filterMap named? ∧ ((ofCode code).fault = none ↔ left = [])) ∧
    ((ofCode code).fault = none → 4 ∣ code.length → ∀ more,
      (ofCode (code ++ more)).refs = (ofCode code).refs ++ (ofCode more).refs ∧
      ((ofCode (code ++ more)).fault = none ↔ (ofCode more).fault = none)) := by
  refine ⟨fun k => (prefix_of_take code k).filterMap _, ?_, fun hfault hfour more => ?_⟩
  · obtain ⟨is, left, htakes⟩ := exists_takes code
    obtain ⟨hinstructions, hend⟩ := ofCode_of_takes htakes
    have hflatten : (is.map encode).flatten = is.flatMap encode := List.flatMap_def.symm
    refine ⟨is.map encode, left, ?_, ?_, ?_, ?_, hend⟩
    · rw [hflatten]
      exact htakes.code
    · exact divided_iff.2 ⟨is, htakes.laid, hflatten, rfl⟩
    · rw [hflatten]
      exact htakes.stuck
    · rw [refs, hinstructions]
      exact (filterMap_named? htakes.laid).symm
  · obtain ⟨js, left, hmore⟩ := exists_takes more
    obtain ⟨hinstructions, hend⟩ := ofCode_of_takes ((takes_of_fault_eq_none hfault).append hmore hfour)
    obtain ⟨hjs, hend'⟩ := ofCode_of_takes hmore
    refine ⟨?_, hend.trans hend'.symm⟩
    simp only [refs, hinstructions, hjs, List.filterMap_append]

end Walk

end Coupling.ClassFile
