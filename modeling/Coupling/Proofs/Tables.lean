import Coupling.Proofs.Exact
import Mathlib.Algebra.Group.Int.Defs
import Mathlib.Algebra.Group.Nat.Defs
import Mathlib.Data.List.Induction

/-!
# Numbers, blocks and tables

The fixed pieces that class files are made of: numbers of one, two and four bytes, blocks of bytes after their length,
and tables of equal pieces after their number. Each is read exactly.
-/

namespace Coupling.ClassFile

open Decoder

variable {α β : Type}

/-! ### Numbers -/

/-- The bytes of a number, the most significant first. -/
def numeral : (width : Nat) → Nat → List UInt8
  | 0, _ => []
  | width + 1, n => numeral width (n / 256) ++ [UInt8.ofNat n]

@[simp] theorem length_numeral (width n : Nat) : (numeral width n).length = width := by
  induction width generalizing n with
  | zero => rfl
  | succ width ih => rw [numeral, List.length_append, ih, List.length_singleton]

theorem bigEndian_concat (bytes : List UInt8) (b : UInt8) :
    Reader.bigEndian (bytes ++ [b]) = 256 * Reader.bigEndian bytes + b.toNat := by
  rw [Reader.bigEndian, List.foldl_append]
  rfl

theorem bigEndian_lt (bytes : List UInt8) : Reader.bigEndian bytes < 256 ^ bytes.length := by
  induction bytes using List.reverseRecOn with
  | nil => decide
  | append_singleton bytes b ih =>
    have := b.toNat_lt
    rw [bigEndian_concat, List.length_append, List.length_singleton, Nat.pow_succ]
    omega

theorem bigEndian_numeral {width n : Nat} (h : n < 256 ^ width) : Reader.bigEndian (numeral width n) = n := by
  induction width generalizing n with
  | zero =>
    have : n = 0 := by simpa using h
    rw [this]
    rfl
  | succ width ih =>
    have hlt : n / 256 < 256 ^ width := Nat.div_lt_of_lt_mul (by rwa [Nat.pow_succ, Nat.mul_comm] at h)
    rw [numeral, bigEndian_concat, ih hlt, UInt8.toNat_ofNat']
    omega

theorem numeral_bigEndian (bytes : List UInt8) : numeral bytes.length (Reader.bigEndian bytes) = bytes := by
  induction bytes using List.reverseRecOn with
  | nil => rfl
  | append_singleton bytes b ih =>
    have hb := b.toNat_lt
    have hdiv : (256 * Reader.bigEndian bytes + b.toNat) / 256 = Reader.bigEndian bytes := by omega
    have hmod : UInt8.ofNat (256 * Reader.bigEndian bytes + b.toNat) = b := by
      rw [← UInt8.toNat_inj, UInt8.toNat_ofNat']
      omega
    rw [List.length_append, List.length_singleton, numeral, bigEndian_concat, hdiv, hmod, ih]

/-- The bytes of a signed number of 32 bits. -/
def signedNumeral (n : Int) : List UInt8 := numeral 4 (n % 2 ^ 32).toNat

/-- A number that 32 bits can hold with its sign. -/
def IsSigned32 (n : Int) : Prop := -2 ^ 31 ≤ n ∧ n < 2 ^ 31

theorem signed32_emod {n : Int} (h : IsSigned32 n) : Reader.signed32 (n % 2 ^ 32).toNat = n := by
  obtain ⟨hlow, hhigh⟩ := h
  unfold Reader.signed32
  split <;> omega

theorem isSigned32_signed32 {n : Nat} (h : n < 2 ^ 32) : IsSigned32 (Reader.signed32 n) := by
  unfold IsSigned32 Reader.signed32
  split <;> omega

theorem signed32_emod_toNat {n : Nat} (h : n < 2 ^ 32) : (Reader.signed32 n % 2 ^ 32).toNat = n := by
  unfold Reader.signed32
  split <;> omega

/-! ### Reading bytes and numbers -/

theorem pass_ok {r : Reader} {n : Int} (h : ¬ (n < 0 ∨ r.remaining < n)) :
    Reader.pass n r = .ok r.offset { r with offset := r.offset + n.toNat } := by
  show (if n < 0 ∨ r.remaining < n then _ else _ : Access Nat) r = _
  rw [if_neg h]
  rfl

theorem pass_short {r : Reader} {n : Int} (h : n < 0 ∨ r.remaining < n) :
    Reader.pass n r = .error (.truncated n r.remaining r.offset) r := by
  show (if n < 0 ∨ r.remaining < n then _ else _ : Access Nat) r = _
  rw [if_pos h]
  rfl

theorem take_ok {r : Reader} {before bytes after : List UInt8} {n : Int} (hr : r.Between before (bytes ++ after))
    (hn : (bytes.length : Int) = n) : Reader.take n r = .ok bytes { r with offset := r.offset + bytes.length } := by
  have hfits : ¬ (n < 0 ∨ r.remaining < n) := by
    rw [hr.remaining_eq, List.length_append]
    omega
  have hextract : (r.buffer.extract r.offset (r.offset + bytes.length)).toList = bytes := by
    rw [Array.toList_extract, hr.buffer, hr.offset, List.extract_eq_take_drop]
    simp
  have hpass := pass_ok hfits
  subst hn
  rw [Int.toNat_natCast] at hpass
  show EStateM.bind (Reader.pass _) _ r = _
  rw [EStateM.bind, hpass]
  exact congrArg (EStateM.Result.ok · _) hextract

theorem take_short {r : Reader} {n : Int} (h : n < 0 ∨ r.remaining < n) :
    Reader.take n r = .error (.truncated n r.remaining r.offset) r := by
  show EStateM.bind (Reader.pass n) _ r = _
  rw [EStateM.bind, pass_short h]

/-- Too few bytes are left, and the reader stays where it is; or the reader moves past the bytes that were asked for. -/
theorem take_cases (r : Reader) (n : Int) :
    ((n < 0 ∨ r.remaining < n) ∧ Reader.take n r = .error (.truncated n r.remaining r.offset) r) ∨
    ∃ before bytes after, r.Between before (bytes ++ after) ∧ (bytes.length : Int) = n ∧
      Reader.take n r = .ok bytes { r with offset := r.offset + bytes.length } := by
  by_cases hshort : n < 0 ∨ r.remaining < n
  · exact .inl ⟨hshort, take_short hshort⟩
  · have hle : r.offset ≤ r.buffer.size := by
      rw [Reader.remaining] at hshort
      omega
    have hr := Reader.between_of_le hle
    have hlen : ((r.rest.take n.toNat).length : Int) = n := by
      rw [hr.remaining_eq] at hshort
      rw [List.length_take]
      omega
    rw [← List.take_append_drop n.toNat r.rest] at hr
    exact .inr ⟨_, _, _, hr, hlen, take_ok hr hlen⟩

theorem bytes_ok {r : Reader} {before bytes after : List UInt8} {n : Int} (hr : r.Between before (bytes ++ after))
    (hn : (bytes.length : Int) = n) : Reader.bytes n r = .ok (bytes, { r with offset := r.offset + bytes.length }) := by
  rw [Reader.bytes, Read.ofAccess, take_ok hr hn]

theorem bytes_short {r : Reader} {n : Int} (h : n < 0 ∨ r.remaining < n) :
    Reader.bytes n r = .error (.truncated n r.remaining r.offset) := by
  rw [Reader.bytes, Read.ofAccess, take_short h]

theorem u4_short {r : Reader} (h : r.remaining < 4) : Reader.u4 r = .error (.truncated 4 r.remaining r.offset) := by
  show Reader.bytes 4 r >>= _ = _
  rw [bytes_short (.inr h)]
  rfl

/-- A number of bytes is read as these bytes. -/
theorem exact_bytes (n : Int) :
    Exact (ofRead (Reader.bytes n)) (Meaning.of (fun a => (a.length : Int) = n) fun a => a) where
  reads := by
    rintro before bytes _ ⟨hn, rfl⟩
    refine ⟨fun hs => ⟨_, ofRead_ok (bytes_ok hs hn), hs.advance⟩, fun {s part} hs hp hne => ?_⟩
    have hlt : part.length < bytes.length := by
      refine Nat.lt_of_le_of_ne hp.length_le fun heq => hne (hp.eq_of_length heq)
    have hshort : s.reader.remaining < n := by
      rw [hs.remaining_eq]
      omega
    exact ⟨_, _, ofRead_error (bytes_short (.inr hshort)), rfl⟩
  sound {s s' before after a} hs h := by
    by_cases hn : 0 ≤ n ∧ n ≤ after.length
    · have hlen : ((after.take n.toNat).length : Int) = n := by
        rw [List.length_take]
        omega
      have hsplit : s.reader.Between before (after.take n.toNat ++ after.drop n.toNat) := by
        rwa [List.take_append_drop]
      rw [ofRead_ok (bytes_ok hsplit hlen)] at h
      cases h
      exact ⟨after.take n.toNat, after.drop n.toNat, ⟨hlen, rfl⟩, (List.take_append_drop ..).symm, hsplit.advance⟩
    · have hover : n < 0 ∨ s.reader.remaining < n := by
        rw [hs.remaining_eq]
        omega
      rw [ofRead_error (bytes_short hover)] at h
      cases h

theorem exact_number (width : Nat) : Exact (ofRead (Reader.bigEndian <$> Reader.bytes width))
    (Meaning.of (· < 256 ^ width) (numeral width)) := by
  refine ((exact_bytes width).read_map _).congr fun before bytes n => ?_
  constructor
  · rintro ⟨a, ⟨hlen, rfl⟩, rfl⟩
    have hwidth : bytes.length = width := by omega
    subst hwidth
    exact ⟨bigEndian_lt bytes, (numeral_bigEndian bytes).symm⟩
  · rintro ⟨hlt, rfl⟩
    exact ⟨_, ⟨by simp, rfl⟩, (bigEndian_numeral hlt).symm⟩

theorem exact_u2 : Exact (ofRead Reader.u2) (Meaning.of (· < 2 ^ 16) (numeral 2)) := exact_number 2

theorem exact_u4 : Exact (ofRead Reader.u4) (Meaning.of (· < 2 ^ 32) (numeral 4)) := exact_number 4

/-- A byte, as its number. -/
theorem exact_u1 : Exact (ofRead Reader.u1) fun _ bytes n => ∃ b : UInt8, bytes = [b] ∧ n = b.toNat := by
  refine (exact_number 1).congr fun before bytes n => ?_
  constructor
  · rintro ⟨hlt, rfl⟩
    refine ⟨UInt8.ofNat n, rfl, ?_⟩
    rw [UInt8.toNat_ofNat']
    omega
  · rintro ⟨b, rfl, rfl⟩
    refine ⟨b.toNat_lt, ?_⟩
    rw [numeral, numeral, UInt8.ofNat_toNat]
    rfl

theorem exact_s4 : Exact (ofRead Reader.s4) (Meaning.of IsSigned32 signedNumeral) := by
  refine (exact_u4.read_map _).congr fun before bytes n => ?_
  constructor
  · rintro ⟨m, ⟨hlt, rfl⟩, rfl⟩
    exact ⟨isSigned32_signed32 hlt, by rw [signedNumeral, signed32_emod_toNat hlt]⟩
  · rintro ⟨hn, rfl⟩
    exact ⟨_, ⟨by omega, rfl⟩, (signed32_emod hn).symm⟩

theorem exact_position : Exact (ofRead Reader.position) fun before bytes n => bytes = [] ∧ n = before.length where
  reads := by
    rintro before _ _ ⟨rfl, rfl⟩
    refine ⟨fun {s after} hs => ⟨s, ?_, by simpa using hs⟩, fun _ hp hne => absurd (List.prefix_nil.1 hp) hne⟩
    exact ofRead_ok (by rw [← hs.offset]; rfl)
  sound {s s' before after n} hs h := by
    have hrun : ofRead Reader.position s = .ok s.reader.offset s := ofRead_ok rfl
    rw [hrun] at h
    cases h
    exact ⟨[], after, ⟨rfl, hs.offset⟩, rfl, by simpa using hs⟩

/-- A byte that decides how the bytes behind it are read, together with the place where it stands. -/
theorem exact_byte_bind {f : Nat → Nat → Read β} {S : Nat → UInt8 → Meaning β}
    (hf : ∀ offset n, Exact (ofRead (f offset n)) (S offset (UInt8.ofNat n))) :
    Exact (ofRead (Reader.position >>= fun offset => Reader.u1 >>= f offset))
      fun before bytes a => ∃ b, (S before.length b).behind [b] before bytes a := by
  refine (exact_position.read_bind fun offset => exact_u1.read_bind (hf offset)).congr fun before bytes a => ?_
  constructor
  · rintro ⟨_, _, _, ⟨rfl, rfl⟩, hbyte, rfl⟩
    obtain ⟨_, _, rest, ⟨b, rfl, rfl⟩, hS, rfl⟩ := hbyte
    rw [UInt8.ofNat_toNat, List.append_nil] at hS
    exact ⟨b, rest, hS, rfl⟩
  · rintro ⟨b, rest, hS, rfl⟩
    refine ⟨_, [], b :: rest, ⟨rfl, rfl⟩, ⟨b.toNat, [b], rest, ⟨b, rfl, rfl⟩, ?_, rfl⟩, rfl⟩
    simpa only [UInt8.ofNat_toNat, List.append_nil] using hS

/-! ### Blocks and tables -/

/-- A block of bytes after its length. -/
def block (body : List UInt8) : List UInt8 := numeral 4 body.length ++ body

/-- A block whose length has its place. -/
def IsBlock (body : List UInt8) : Prop := body.length < 2 ^ 32

instance (body : List UInt8) : Decidable (IsBlock body) := inferInstanceAs (Decidable (_ < _))

/-- A row of a given number of pieces. -/
def IsRow (valid : α → Prop) (n : Nat) (pieces : List α) : Prop := pieces.length = n ∧ ∀ a ∈ pieces, valid a

/-- Pieces after their number. -/
def table (encode : α → List UInt8) (pieces : List α) : List UInt8 :=
  numeral 2 pieces.length ++ pieces.flatMap encode

/-- A table whose number of pieces has its place. -/
def IsTable (valid : α → Prop) (pieces : List α) : Prop := pieces.length < 2 ^ 16 ∧ ∀ a ∈ pieces, valid a

/-- Entries of a fixed width after their number, kept as bytes. -/
def entries (width : Nat) (body : List UInt8) : List UInt8 := numeral 2 (body.length / width) ++ body

/-- Entries whose number has its place. -/
def IsEntries (width : Nat) (body : List UInt8) : Prop := ∃ count < 2 ^ 16, body.length = width * count

section Rows

variable {valid : α → Prop} {encode : α → List UInt8}

theorem meaning_row_zero (before bytes : List UInt8) (as : List α) :
    Meaning.nothing [] before bytes as ↔ Meaning.of (IsRow valid 0) (List.flatMap encode) before bytes as := by
  constructor
  · rintro ⟨rfl, rfl⟩
    exact ⟨⟨rfl, by simp⟩, rfl⟩
  · rintro ⟨⟨hlen, -⟩, rfl⟩
    rw [List.length_eq_zero_iff.1 hlen]
    exact ⟨rfl, rfl⟩

theorem meaning_row_succ (n : Nat) (before bytes : List UInt8) (as : List α) :
    ((Meaning.of valid encode).seq fun a => (Meaning.of (IsRow valid n) (List.flatMap encode)).seq fun as =>
      Meaning.nothing (a :: as)) before bytes as ↔
    Meaning.of (IsRow valid (n + 1)) (List.flatMap encode) before bytes as := by
  simp only [Meaning.seq_of, Meaning.behind_seq_of, Meaning.behind_nothing]
  constructor
  · rintro ⟨a, ha, as, ⟨rfl, has⟩, rfl, rfl⟩
    exact ⟨⟨rfl, List.forall_mem_cons.2 ⟨ha, has⟩⟩, rfl⟩
  · rintro ⟨⟨hlen, hall⟩, rfl⟩
    cases as with
    | nil => cases hlen
    | cons a as =>
      obtain ⟨ha, has⟩ := List.forall_mem_cons.1 hall
      exact ⟨a, ha, as, ⟨Nat.succ.inj hlen, has⟩, rfl, rfl⟩

theorem meaning_table (before bytes : List UInt8) (as : List α) :
    ((Meaning.of (· < 2 ^ 16) (numeral 2)).seq fun n => Meaning.of (IsRow valid n) (List.flatMap encode)) before bytes as ↔
    Meaning.of (IsTable valid) (table encode) before bytes as := by
  simp only [Meaning.seq_of, Meaning.behind_of]
  constructor
  · rintro ⟨n, hn, ⟨rfl, has⟩, rfl⟩
    exact ⟨⟨hn, has⟩, rfl⟩
  · rintro ⟨⟨hn, has⟩, rfl⟩
    exact ⟨_, hn, ⟨rfl, has⟩, rfl⟩

theorem exact_repeated {d : Decoder α} (hd : Exact d (Meaning.of valid encode)) (n : Nat) :
    Exact (repeated d n) (Meaning.of (IsRow valid n) (List.flatMap encode)) := by
  induction n with
  | zero => exact (Exact.pure []).congr meaning_row_zero
  | succ n ih => exact (hd.bind fun a => ih.bind fun as => Exact.pure (a :: as)).congr (meaning_row_succ n)

theorem exact_read_repeated {x : Read α} (hx : Exact (ofRead x) (Meaning.of valid encode)) (n : Nat) :
    Exact (ofRead (repeated x n)) (Meaning.of (IsRow valid n) (List.flatMap encode)) := by
  induction n with
  | zero => exact (Exact.read_pure []).congr meaning_row_zero
  | succ n ih =>
    exact (hx.read_bind fun a => ih.read_bind fun as => Exact.read_pure (a :: as)).congr (meaning_row_succ n)

theorem exact_table {d : Decoder α} (hd : Exact d (Meaning.of valid encode)) :
    Exact (ofRead Reader.u2 >>= fun n => repeated d n) (Meaning.of (IsTable valid) (table encode)) :=
  (exact_u2.bind fun n => exact_repeated hd n).congr meaning_table

theorem exact_read_table {x : Read α} (hx : Exact (ofRead x) (Meaning.of valid encode)) :
    Exact (ofRead (Reader.u2 >>= fun n => repeated x n)) (Meaning.of (IsTable valid) (table encode)) :=
  (exact_u2.read_bind fun n => exact_read_repeated hx n).congr meaning_table

/-- A table and what follows it. -/
theorem exact_table_bind {d : Decoder α} {k : List α → Decoder β} {S : List α → Meaning β}
    (hd : Exact d (Meaning.of valid encode)) (hk : ∀ as, Exact (k as) (S as)) :
    Exact (ofRead Reader.u2 >>= fun n => repeated d n >>= k) ((Meaning.of (IsTable valid) (table encode)).seq S) := by
  rw [← bind_assoc]
  exact (exact_table hd).bind hk

end Rows

theorem meaning_block (before bytes body : List UInt8) :
    ((Meaning.of (· < 2 ^ 32) (numeral 4)).seq fun n => Meaning.of (fun a => (a.length : Int) = n) fun a => a)
      before bytes body ↔ Meaning.of IsBlock block before bytes body := by
  simp only [Meaning.seq_of, Meaning.behind_of]
  constructor
  · rintro ⟨n, hn, hlen, rfl⟩
    obtain rfl : body.length = n := by omega
    exact ⟨hn, rfl⟩
  · rintro ⟨hn, rfl⟩
    exact ⟨_, hn, rfl, rfl⟩

/-- A block and what follows it. -/
theorem exact_block_bind {k : List UInt8 → Decoder β} {S : List UInt8 → Meaning β} (hk : ∀ body, Exact (k body) (S body)) :
    Exact (ofRead Reader.u4 >>= fun n => ofRead (Reader.bytes n) >>= k) ((Meaning.of IsBlock block).seq S) := by
  rw [← bind_assoc]
  exact ((exact_u4.bind fun n => exact_bytes n).congr meaning_block).bind hk

/-- Entries that are kept as bytes, and what follows them. -/
theorem exact_entries_bind (width : Nat) (hwidth : 0 < width) {k : List UInt8 → Decoder β}
    {S : List UInt8 → Meaning β} (hk : ∀ body, Exact (k body) (S body)) :
    Exact (ofRead Reader.u2 >>= fun n : Nat => ofRead (Reader.bytes (width * n)) >>= k)
      ((Meaning.of (IsEntries width) (entries width)).seq S) := by
  rw [← bind_assoc]
  refine Exact.bind ((exact_u2.bind fun n => exact_bytes (width * n)).congr fun before bytes body => ?_) hk
  simp only [Meaning.seq_of, Meaning.behind_of]
  constructor
  · rintro ⟨n, hn, hlen, rfl⟩
    have hlen : body.length = width * n := by exact_mod_cast hlen
    exact ⟨⟨n, hn, hlen⟩, by rw [entries, hlen, Nat.mul_div_cancel_left n hwidth]⟩
  · rintro ⟨⟨count, hcount, hlen⟩, rfl⟩
    refine ⟨count, hcount, by exact_mod_cast hlen, ?_⟩
    rw [entries, hlen, Nat.mul_div_cancel_left count hwidth]

/-! ### References and buffers within buffers -/

theorem quiet_note (n : Note) : Quiet (note n) () := fun _ => ⟨_, rfl⟩

/-- Looking a reference up reads nothing, whatever comes of it. -/
theorem quiet_resolve (place : Text) (role : Role) (found : Except Fault Text) :
    Quiet (resolve place role found) found.toOption := by
  intro s
  cases found with
  | ok t => exact ⟨s.notes, rfl⟩
  | error f => exact ⟨_, rfl⟩

theorem quiet_discard {d : Decoder α} {a : α} (hd : Quiet d a) : Quiet (discard d) () := by
  intro s
  obtain ⟨notes, h⟩ := hd s
  refine ⟨notes, ?_⟩
  show EStateM.map _ d s = _
  rw [EStateM.map, h]

/-- A loop whose steps read nothing reads nothing. -/
theorem quiet_forIn {items : List α} {d : α → Decoder Unit} (hd : ∀ a, Quiet (d a) ()) :
    Quiet (forIn items PUnit.unit fun a _ => do d a; pure (ForInStep.yield PUnit.unit)) PUnit.unit := by
  induction items with
  | nil => exact fun s => ⟨s.notes, rfl⟩
  | cons a items ih =>
    intro s
    obtain ⟨notes, h⟩ := hd a s
    obtain ⟨notes', h'⟩ := ih { s with notes }
    refine ⟨notes', ?_⟩
    rw [List.forIn_cons, bind_assoc, bind_ok h]
    exact h'

/-- In a buffer of its own a decoder takes a beginning of the buffer, and the rest is left over. -/
theorem exact_within {d : Decoder α} {R : Meaning α} (hd : Exact d R) (body : List UInt8) :
    Exact (within body d) fun _ bytes p => bytes = [] ∧ ∃ taken, R [] taken p.1 ∧ body = taken ++ p.2 where
  reads := by
    rintro before _ ⟨a, slack⟩ ⟨rfl, taken, hR, rfl⟩
    refine ⟨fun {s after} hs => ?_, fun _ hp hne => absurd (List.prefix_nil.1 hp) hne⟩
    obtain ⟨inner, hrun, hinner⟩ := (hd.reads hR).whole (s := { s with reader := ⟨(taken ++ slack).toArray, 0⟩ })
      (Reader.Between.start _)
    refine ⟨{ s with notes := inner.notes }, ?_, by simpa using hs⟩
    rw [within, hrun]
    simp only [hinner.rest_eq]
  sound {s s' before after p} hs h := by
    unfold within at h
    split at h
    · next a inner hrun =>
      cases h
      obtain ⟨taken, rest, hR, hbody, hinner⟩ := hd.sound (Reader.Between.start body) hrun
      exact ⟨[], after, ⟨rfl, taken, hR, by rw [hbody, hinner.rest_eq]⟩, rfl, by simpa using hs⟩
    · cases h

/-- What is made of a buffer of its own and of the bytes left over in it. -/
theorem exact_within_pure {d : Decoder α} {R : Meaning α} (hd : Exact d R) (body : List UInt8)
    (build : α → List UInt8 → β) : Exact (within body d >>= fun p => pure (build p.1 p.2))
      fun _ bytes b => ∃ a taken slack, R [] taken a ∧ body = taken ++ slack ∧ bytes = [] ∧ b = build a slack := by
  refine ((exact_within hd body).bind fun p => Exact.pure (build p.1 p.2)).congr fun before bytes b => ?_
  constructor
  · rintro ⟨⟨a, slack⟩, _, _, ⟨rfl, taken, hR, rfl⟩, ⟨rfl, rfl⟩, rfl⟩
    exact ⟨a, taken, slack, hR, rfl, rfl, rfl⟩
  · rintro ⟨a, taken, slack, hR, rfl, rfl, rfl⟩
    exact ⟨(a, slack), [], [], ⟨rfl, taken, hR, rfl⟩, ⟨rfl, rfl⟩, rfl⟩

end Coupling.ClassFile
