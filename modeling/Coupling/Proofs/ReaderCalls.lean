import Coupling.ClassFile.Calls
import Coupling.Proofs.Tables
import Mathlib.Algebra.GroupWithZero.Nat
import Mathlib.Data.List.Basic

/-!
# Calls on one reader

A reader is shared by everything that reads a class file, so what one call leaves behind is what the next one finds. A call
is either refused or takes bytes (`serve_cases`), and all else follows from this. A refused call might as well not have been
made. The other calls take slices that follow one another, and these are the bytes that were left at the start, up to where
the reader ends up.
-/

namespace Coupling.ClassFile.Reader

variable {r : Reader} {c : Call} {calls : List Call} {e : Event} {bytes : List UInt8}

/-! ### One call -/

/-- Bytes that a call asks for, and what they are read as. -/
inductive Call.Reads : Call → List UInt8 → Answer → Prop where
  | u1 (a : UInt8) : Reads .u1 [a] (.number a.toNat)
  | u2 (a b : UInt8) : Reads .u2 [a, b] (.number (2 ^ 8 * a.toNat + b.toNat : Nat))
  | u4 (a b c d : UInt8) :
    Reads .u4 [a, b, c, d] (.number (2 ^ 24 * a.toNat + 2 ^ 16 * b.toNat + 2 ^ 8 * c.toNat + d.toNat : Nat))
  /-- The sign bit is not set. -/
  | s4_low {bytes : List UInt8} {n : Nat} : Reads .u4 bytes (.number n) → n < 2 ^ 31 → Reads .s4 bytes (.number n)
  /-- The sign bit is set. -/
  | s4_high {bytes : List UInt8} {n : Nat} :
    Reads .u4 bytes (.number n) → 2 ^ 31 ≤ n → Reads .s4 bytes (.number (n - 2 ^ 32))
  | read (bytes : List UInt8) : Reads (.read bytes.length) bytes (.bytes bytes)
  | skip (bytes : List UInt8) : Reads (.skip bytes.length) bytes .nothing

theorem Call.reads_u4 (h : bytes.length = 4) : Call.Reads .u4 bytes (.number (bigEndian bytes)) := by
  match bytes, h with
  | [a, b, c, d], _ =>
    have hvalue : bigEndian [a, b, c, d] = 2 ^ 24 * a.toNat + 2 ^ 16 * b.toNat + 2 ^ 8 * c.toNat + d.toNat := by
      simp only [bigEndian, List.foldl_cons, List.foldl_nil]
      omega
    rw [hvalue]
    exact .u4 a b c d

/-- A call reads the bytes that it takes. -/
theorem Call.reads_answer (h : (bytes.length : Int) = c.width) : c.Reads bytes (c.answer bytes) := by
  cases c with
  | u1 =>
    obtain ⟨a, rfl⟩ := List.length_eq_one_iff.1 (Int.ofNat_inj.1 h)
    have hvalue : bigEndian [a] = a.toNat := by simp [bigEndian]
    rw [answer, hvalue]
    exact .u1 a
  | u2 =>
    obtain ⟨a, b, rfl⟩ := List.length_eq_two.1 (Int.ofNat_inj.1 h)
    have hvalue : bigEndian [a, b] = 2 ^ 8 * a.toNat + b.toNat := by simp [bigEndian]
    rw [answer, hvalue]
    exact .u2 a b
  | u4 => exact reads_u4 (Int.ofNat_inj.1 h)
  | s4 =>
    have hu4 := reads_u4 (Int.ofNat_inj.1 h)
    rw [answer, signed32]
    split
    · next hlow => exact .s4_low hu4 hlow
    · next hhigh => exact .s4_high hu4 (Nat.le_of_not_lt hhigh)
  | read n =>
    obtain rfl : (bytes.length : Int) = n := h
    exact .read bytes
  | skip n =>
    obtain rfl : (bytes.length : Int) = n := h
    exact .skip bytes

/-- A call that was refused: it asked for too much, says so, and left the reader where it was. -/
structure Event.Refused (e : Event) : Prop where
  short : e.call.width < 0 ∨ e.before.remaining < e.call.width
  outcome : e.outcome = .error (.truncated e.call.width e.before.remaining e.before.offset)
  after : e.after = e.before

/-- A call that took bytes: they are those that follow, as many as it asked for, and the reader stands after them. -/
structure Event.Takes (e : Event) (bytes : List UInt8) : Prop where
  between : ∃ before after, e.before.Between before (bytes ++ after)
  length : (bytes.length : Int) = e.call.width
  outcome : e.outcome = .ok (e.call.answer bytes)
  after : e.after = { e.before with offset := e.before.offset + bytes.length }

theorem serve_of_take_error {f : Fault} {r' : Reader} (h : take c.width r = .error f r') :
    r.serve c = ⟨c, r, .error f, r'⟩ := by
  have hperform : c.perform r = .error f r' := by
    show EStateM.bind (take c.width) _ r = _
    rw [EStateM.bind, h]
  rw [serve, hperform]

theorem serve_of_take_ok {r' : Reader} (h : take c.width r = .ok bytes r') :
    r.serve c = ⟨c, r, .ok (c.answer bytes), r'⟩ := by
  have hperform : c.perform r = .ok (c.answer bytes) r' := by
    show EStateM.bind (take c.width) _ r = _
    rw [EStateM.bind, h]
    rfl
  rw [serve, hperform]

theorem serve_of_between {before after : List UInt8} (hr : r.Between before (bytes ++ after))
    (hlength : (bytes.length : Int) = c.width) :
    r.serve c = ⟨c, r, .ok (c.answer bytes), { r with offset := r.offset + bytes.length }⟩ :=
  serve_of_take_ok (take_ok hr hlength)

/-- A call is refused, or takes the bytes that it asks for. -/
theorem serve_cases (r : Reader) (c : Call) : (r.serve c).Refused ∨ ∃ bytes, (r.serve c).Takes bytes := by
  obtain ⟨hshort, htake⟩ | ⟨before, bytes, after, hr, hlength, htake⟩ := take_cases r c.width
  · rw [serve_of_take_error htake]
    exact .inl ⟨hshort, rfl, rfl⟩
  · rw [serve_of_take_ok htake]
    exact .inr ⟨bytes, ⟨before, after, hr⟩, hlength, rfl, rfl⟩

@[simp] theorem serve_call (r : Reader) (c : Call) : (r.serve c).call = c := by
  unfold serve
  split <;> rfl

@[simp] theorem serve_before (r : Reader) (c : Call) : (r.serve c).before = r := by
  unfold serve
  split <;> rfl

namespace Event

theorem Refused.succeeded (h : e.Refused) : e.succeeded = false := by
  rw [Event.succeeded, h.outcome]
  rfl

theorem Takes.succeeded (h : e.Takes bytes) : e.succeeded = true := by
  rw [Event.succeeded, h.outcome]
  rfl

theorem Takes.fits (h : e.Takes bytes) : ¬ (e.call.width < 0 ∨ e.before.remaining < e.call.width) := by
  obtain ⟨before, after, hr⟩ := h.between
  rw [hr.remaining_eq, List.length_append, ← h.length]
  omega

theorem Takes.slice_eq (h : e.Takes bytes) : e.slice = bytes := by
  obtain ⟨before, after, hr⟩ := h.between
  rw [slice, h.after, Array.toList_extract, hr.buffer, hr.offset, List.extract_eq_take_drop]
  simp

theorem Takes.rest_eq (h : e.Takes bytes) : e.before.rest = bytes ++ e.after.rest := by
  obtain ⟨before, after, hr⟩ := h.between
  rw [hr.rest_eq, h.after, hr.advance.rest_eq]

end Event

theorem buffer_serve (r : Reader) (c : Call) : (r.serve c).after.buffer = r.buffer := by
  obtain hrefused | ⟨bytes, htakes⟩ := serve_cases r c
  · rw [hrefused.after, serve_before]
  · rw [htakes.after, serve_before]

/-- A call does not lead out of the buffer. -/
theorem offset_serve_le (r : Reader) (c : Call) (h : r.offset ≤ r.buffer.size) :
    (r.serve c).after.offset ≤ (r.serve c).after.buffer.size := by
  obtain hrefused | ⟨bytes, htakes⟩ := serve_cases r c
  · rwa [hrefused.after, serve_before]
  · obtain ⟨before, after, hr⟩ := htakes.between
    rw [htakes.after]
    exact hr.advance.offset_le

/-! ### Numbers in parts -/

theorem bigEndian_append (high low : List UInt8) :
    bigEndian (high ++ low) = 256 ^ low.length * bigEndian high + bigEndian low := by
  induction low using List.reverseRecOn with
  | nil => simp [bigEndian]
  | append_singleton low b ih =>
    rw [← List.append_assoc, bigEndian_concat, bigEndian_concat, ih, List.length_append, List.length_singleton,
      Nat.pow_succ, Nat.mul_add, ← Nat.mul_assoc, Nat.mul_comm 256 (256 ^ _), Nat.add_assoc]

/-- In place of a number of four bytes, two numbers of two bytes can be read. -/
theorem Event.Takes.halves (h : e.Takes bytes) (hcall : e.call = .u4) :
    ∃ high low : Int, e.outcome = .ok (.number (65536 * high + low)) ∧
      (e.before.history [.u2, .u2]).map Event.outcome = [.ok (.number high), .ok (.number low)] ∧
      e.before.final [.u2, .u2] = e.after := by
  have hlength : bytes.length = 4 := Int.ofNat_inj.1 (h.length.trans (by rw [hcall]; rfl))
  obtain ⟨high, low, rfl, hhigh, hlow⟩ : ∃ high low, bytes = high ++ low ∧ high.length = 2 ∧ low.length = 2 :=
    ⟨bytes.take 2, bytes.drop 2, (List.take_append_drop ..).symm, by simp [hlength], by simp [hlength]⟩
  obtain ⟨before, after, hr⟩ := h.between
  rw [List.append_assoc] at hr
  -- The second number is read from where the first one ends.
  have hfirst := serve_of_between (c := .u2) hr (by rw [hhigh]; rfl)
  have hsecond := serve_of_between (c := .u2) hr.advance (by rw [hlow]; rfl)
  have hvalue : (bigEndian (high ++ low) : Int) = 65536 * bigEndian high + bigEndian low := by
    rw [bigEndian_append, hlow]
    omega
  refine ⟨bigEndian high, bigEndian low, ?_, ?_, ?_⟩
  · rw [h.outcome, hcall, Call.answer, hvalue]
  · simp only [history, hfirst, hsecond]
    rfl
  · simp only [final, List.foldl_cons, List.foldl_nil, hfirst, hsecond]
    rw [h.after, List.length_append, Nat.add_assoc]

/-- In place of a signed number, the number itself can be read. -/
theorem Event.Takes.unsigned (h : e.Takes bytes) (hcall : e.call = .s4) :
    ∃ n : Nat, e.outcome = .ok (.number (if 2 ^ 31 ≤ n then (n : Int) - 2 ^ 32 else n)) ∧
      (e.before.serve .u4).outcome = .ok (.number n) ∧ (e.before.serve .u4).after = e.after := by
  obtain ⟨before, after, hr⟩ := h.between
  have hserve := serve_of_between (c := .u4) hr (h.length.trans (by rw [hcall]; rfl))
  refine ⟨bigEndian bytes, ?_, ?_, ?_⟩
  · rw [h.outcome, hcall, Call.answer, signed32]
    congr 2
    split <;> split <;> omega
  · rw [hserve]
    rfl
  · rw [hserve, h.after]

/-! ### Decoders -/

/-- The reading that asks for the same, as decoders use it. -/
def Call.reading : Call → Read Answer
  | .u1 => (fun n : Nat => .number n) <$> Reader.u1
  | .u2 => (fun n : Nat => .number n) <$> Reader.u2
  | .u4 => (fun n : Nat => .number n) <$> Reader.u4
  | .s4 => .number <$> Reader.s4
  | .read n => .bytes <$> Reader.bytes n
  | .skip n => (fun _ => .nothing) <$> Reader.skip n

theorem Call.reading_eq_map (c : Call) : c.reading = (fun bytes => c.answer bytes) <$> Reader.bytes c.width := by
  cases c with
  | u1 | u2 | u4 => exact Functor.map_map ..
  | s4 => exact (Functor.map_map ..).trans (Functor.map_map ..)
  | read n => rfl
  | skip n => exact Functor.map_map ..

theorem Call.reading_serve (c : Call) (r : Reader) :
    c.reading r = (r.serve c).outcome.map fun a => (a, (r.serve c).after) := by
  rw [reading_eq_map]
  show Reader.bytes c.width r >>= _ = _
  rw [Reader.bytes, Read.ofAccess]
  cases htake : take c.width r with
  | ok bytes r' =>
    rw [serve_of_take_ok htake]
    rfl
  | error f r' =>
    rw [serve_of_take_error htake]
    rfl

/-! ### Calls one after the other -/

/-- The calls that were answered. -/
def served (r : Reader) (calls : List Call) : List Event := (r.history calls).filter Event.succeeded

theorem map_call_history (r : Reader) (calls : List Call) : (r.history calls).map Event.call = calls := by
  induction calls generalizing r with
  | nil => rfl
  | cons c calls ih => rw [history, List.map_cons, serve_call, ih]

/-- What every call keeps holds whenever a call is made. -/
theorem before_of_mem_history {P : Reader → Prop} (hstep : ∀ r c, P r → P (r.serve c).after) (h : P r)
    (he : e ∈ r.history calls) : P e.before ∧ e.before.serve e.call = e := by
  induction calls generalizing r with
  | nil => cases he
  | cons c calls ih =>
    obtain rfl | he := List.mem_cons.1 he
    · rw [serve_before, serve_call]
      exact ⟨h, rfl⟩
    · exact ih (hstep r c h) he

theorem serve_of_mem_history (he : e ∈ r.history calls) : e.before.serve e.call = e :=
  (before_of_mem_history (P := fun _ => True) (fun _ _ _ => trivial) trivial he).2

theorem cases_of_mem_history (he : e ∈ r.history calls) : e.Refused ∨ ∃ bytes, e.Takes bytes := by
  have hcases := serve_cases e.before e.call
  rwa [serve_of_mem_history he] at hcases

theorem buffer_of_mem_history (he : e ∈ r.history calls) : e.before.buffer = r.buffer ∧ e.after.buffer = r.buffer := by
  have hbefore := (before_of_mem_history (P := fun r' => r'.buffer = r.buffer)
    (fun r' c h => (buffer_serve r' c).trans h) rfl he).1
  have hserve := buffer_serve e.before e.call
  rw [serve_of_mem_history he] at hserve
  exact ⟨hbefore, hserve.trans hbefore⟩

theorem offset_le_of_mem_history (h : r.offset ≤ r.buffer.size) (he : e ∈ r.history calls) :
    e.after.offset ≤ r.buffer.size := by
  have hbefore := (before_of_mem_history (P := fun r' => r'.offset ≤ r'.buffer.size) offset_serve_le h he).1
  have hafter := offset_serve_le e.before e.call hbefore
  rwa [serve_of_mem_history he, (buffer_of_mem_history he).2] at hafter

theorem exists_takes_of_mem_served (he : e ∈ r.served calls) : ∃ bytes, e.Takes bytes := by
  obtain ⟨hmem, hsucceeded⟩ := List.mem_filter.1 he
  refine (cases_of_mem_history hmem).resolve_left fun hrefused => ?_
  rw [hrefused.succeeded] at hsucceeded
  cases hsucceeded

theorem served_cons_of_refused (h : (r.serve c).Refused) : r.served (c :: calls) = r.served calls := by
  have hafter : (r.serve c).after = r := h.after.trans (serve_before r c)
  rw [served, history, List.filter_cons_of_neg (by rw [h.succeeded]; exact Bool.false_ne_true), hafter, served]

theorem served_cons_of_takes (h : (r.serve c).Takes bytes) :
    r.served (c :: calls) = r.serve c :: (r.serve c).after.served calls := by
  rw [served, history, List.filter_cons_of_pos h.succeeded, served]

/-- Without the calls that were refused, the others are answered alike. -/
theorem history_served (r : Reader) (calls : List Call) :
    r.history ((r.served calls).map Event.call) = r.served calls := by
  induction calls generalizing r with
  | nil => rfl
  | cons c calls ih =>
    obtain hrefused | ⟨bytes, htakes⟩ := serve_cases r c
    · rw [served_cons_of_refused hrefused, ih]
    · rw [served_cons_of_takes htakes, List.map_cons, serve_call, history, ih]

/-- Calls whose slices follow one another without a gap, from one position to another. -/
inductive Consecutive : Nat → List Event → Nat → Prop where
  | nil (n : Nat) : Consecutive n [] n
  | cons {e : Event} {events : List Event} {stop : Nat} :
    Consecutive (e.before.offset + e.slice.length) events stop → Consecutive e.before.offset (e :: events) stop

theorem Consecutive.eq_add_sum {start stop : Nat} {events : List Event} (h : Consecutive start events stop) :
    stop = start + (events.map fun e => e.slice.length).sum := by
  induction h with
  | nil n => rfl
  | cons _ ih => rw [ih, List.map_cons, List.sum_cons, Nat.add_assoc]

theorem final_cons (r : Reader) (c : Call) (calls : List Call) :
    r.final (c :: calls) = (r.serve c).after.final calls := rfl

theorem consecutive_served (r : Reader) (calls : List Call) :
    Consecutive r.offset (r.served calls) (r.final calls).offset := by
  induction calls generalizing r with
  | nil => exact .nil r.offset
  | cons c calls ih =>
    rw [final_cons]
    -- A refused call adds no slice and hands the same reader on, so both sides are those of the calls after it.
    obtain hrefused | ⟨bytes, htakes⟩ := serve_cases r c
    · rw [served_cons_of_refused hrefused, hrefused.after, serve_before]
      exact ih r
    · have hoffset : (r.serve c).after.offset = (r.serve c).before.offset + (r.serve c).slice.length := by
        rw [htakes.after, htakes.slice_eq]
      have hcons := Consecutive.cons (hoffset ▸ ih (r.serve c).after)
      rwa [serve_before, ← served_cons_of_takes htakes] at hcons

/-- What was left at the start are the slices, end to end, and what is left in the end. -/
theorem rest_eq_served (r : Reader) (calls : List Call) :
    r.rest = (r.served calls).flatMap Event.slice ++ (r.final calls).rest := by
  induction calls generalizing r with
  | nil => rfl
  | cons c calls ih =>
    rw [final_cons]
    obtain hrefused | ⟨bytes, htakes⟩ := serve_cases r c
    · rw [served_cons_of_refused hrefused, hrefused.after, serve_before]
      exact ih r
    · have hrest := htakes.rest_eq
      rw [serve_before, ih (r.serve c).after] at hrest
      rw [served_cons_of_takes htakes, List.flatMap_cons, htakes.slice_eq, List.append_assoc]
      exact hrest

/-! ### Whole histories -/

/-- What can be said of calls that are made on one reader, one after the other. -/
structure Orderly (r : Reader) (calls : List Call) : Prop where
  /-- Every call is made, in order. -/
  made : (r.history calls).map Event.call = calls
  /-- On the reader that a call finds, the reading that asks for the same comes to the same. -/
  reading : ∀ e ∈ r.history calls, e.call.reading e.before = e.outcome.map fun a => (a, e.after)
  /-- A call fails just if it asks for a negative number of bytes or for more than are left; beyond the end of the buffer,
  less than nothing is left. -/
  fails : ∀ e ∈ r.history calls,
    e.succeeded = false ↔ e.call.width < 0 ∨ e.before.remaining < e.call.width
  /-- A call that fails says what it asked for and what was left, and leaves the reader where it was. -/
  refused : ∀ e ∈ r.history calls, e.succeeded = false →
    e.outcome = .error (.truncated e.call.width e.before.remaining e.before.offset) ∧ e.after = e.before
  /-- Without the calls that fail, all others come to the same. -/
  dropped : r.history ((r.served calls).map Event.call) = r.served calls
  /-- The slices of the other calls follow one another, from where the reader stood to where it stands in the end. -/
  consecutive : Consecutive r.offset (r.served calls) (r.final calls).offset
  /-- Their lengths add up to the way that the reader has gone. -/
  lengths : (r.final calls).offset = r.offset + ((r.served calls).map fun e => e.slice.length).sum
  /-- No byte is left out or taken twice. -/
  covers : r.rest = (r.served calls).flatMap Event.slice ++ (r.final calls).rest
  /-- A call that succeeds answers with what its slice is read as. -/
  reads : ∀ e ∈ r.served calls, ∃ a, e.outcome = .ok a ∧ e.call.Reads e.slice a
  /-- A number of four bytes is made of the two numbers of two bytes that could be read in its place. -/
  halves : ∀ e ∈ r.served calls, e.call = .u4 → ∃ high low : Int,
    e.outcome = .ok (.number (65536 * high + low)) ∧
    (e.before.history [.u2, .u2]).map Event.outcome = [.ok (.number high), .ok (.number low)] ∧
    e.before.final [.u2, .u2] = e.after
  /-- A signed number is the number that could be read in its place, less `2 ^ 32` from `2 ^ 31` on. -/
  signed : ∀ e ∈ r.served calls, e.call = .s4 → ∃ n : Nat,
    e.outcome = .ok (.number (if 2 ^ 31 ≤ n then (n : Int) - 2 ^ 32 else n)) ∧
    (e.before.serve .u4).outcome = .ok (.number n) ∧ (e.before.serve .u4).after = e.after
  /-- The buffer stays what it is. -/
  buffer : ∀ e ∈ r.history calls, e.before.buffer = r.buffer ∧ e.after.buffer = r.buffer
  /-- A reader that starts within the buffer stays there. -/
  inside : r.offset ≤ r.buffer.size → ∀ e ∈ r.history calls, e.after.offset ≤ r.buffer.size

/-- Whatever calls are made on a reader, wherever it stands, those that fail change nothing, and the others take what was
left, byte after byte. -/
theorem calls_orderly (r : Reader) (calls : List Call) : r.Orderly calls where
  made := map_call_history r calls
  reading e he := by
    have hreading := e.call.reading_serve e.before
    rwa [serve_of_mem_history he] at hreading
  fails e he := by
    obtain hrefused | ⟨bytes, htakes⟩ := cases_of_mem_history he
    · exact iff_of_true hrefused.succeeded hrefused.short
    · exact iff_of_false (by simp [htakes.succeeded]) htakes.fits
  refused e he hfails := by
    obtain hrefused | ⟨bytes, htakes⟩ := cases_of_mem_history he
    · exact ⟨hrefused.outcome, hrefused.after⟩
    · rw [htakes.succeeded] at hfails
      cases hfails
  dropped := history_served r calls
  consecutive := consecutive_served r calls
  lengths := (consecutive_served r calls).eq_add_sum
  covers := rest_eq_served r calls
  reads e he := by
    obtain ⟨bytes, htakes⟩ := exists_takes_of_mem_served he
    refine ⟨_, htakes.outcome, ?_⟩
    rw [htakes.slice_eq]
    exact Call.reads_answer htakes.length
  halves e he hcall := by
    obtain ⟨bytes, htakes⟩ := exists_takes_of_mem_served he
    exact htakes.halves hcall
  signed e he hcall := by
    obtain ⟨bytes, htakes⟩ := exists_takes_of_mem_served he
    exact htakes.unsigned hcall
  buffer e he := buffer_of_mem_history he
  inside h e he := offset_le_of_mem_history h he

-- The second call is answered although the first is not, and the third does not get the last byte.
example : ((⟨#[0x80, 0, 0, 1, 7], 0⟩ : Reader).history [.read (-1), .s4, .u2, .u1, .skip 0, .u1]).map Event.outcome =
    [.error (.truncated (-1) 5 0), .ok (.number (-0x7FFFFFFF)), .error (.truncated 2 1 4), .ok (.number 7), .ok .nothing,
      .error (.truncated 1 0 5)] := rfl

-- Beyond the end of the buffer, not even zero bytes are read.
example : ((⟨#[1], 3⟩ : Reader).history [.read 0, .u1]).map Event.outcome =
    [.error (.truncated 0 (-2) 3), .error (.truncated 1 (-2) 3)] := rfl

end Coupling.ClassFile.Reader
