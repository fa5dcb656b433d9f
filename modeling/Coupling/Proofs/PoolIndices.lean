import Coupling.Proofs.PoolFormat

/-!
# What the indices of a constant pool lead to

The slots of a pool are those of its entries: an entry stands in the slot that it starts at, and nothing stands in the
second slot of one that takes two. So every index is out of range, or an entry starts there, or it is such a second slot.
Each kind of lookup ends at once or in a lookup of a simpler kind. It follows that a lookup finds what the entries say, and
fails with the fault that they say, at every index.

A pool is read from any position just when the bytes of one stand there. The reader then stands after the last entry,
whatever follows it, and the pool answers every lookup so.
-/

namespace Coupling.ClassFile

open PoolEntry (Stores)

variable {entries : List PoolEntry} {slots : List (Option Constant)}

/-! ### What stands in a slot -/

namespace Placed

/-- An entry stands in the slot that it starts at. -/
theorem getElem?_of_startsAt (h : Placed entries slots) {i : Int} {e : PoolEntry} (he : StartsAt entries i e) :
    ∃ (k : Nat) (c : Constant), i = k + 1 ∧ slots[k]? = some (some c) ∧ Stores e c := by
  induction h generalizing i with
  | nil =>
    obtain ⟨before, after, heq, -⟩ := he
    simp at heq
  | narrow hc hone _ ih =>
    rcases startsAt_cons.1 he with ⟨rfl, rfl⟩ | he
    · exact ⟨0, _, rfl, rfl, hc⟩
    · obtain ⟨k, c, hk, hslot, hc⟩ := ih he
      exact ⟨k + 1, c, by omega, hslot, hc⟩
  | wide hc htwo _ ih =>
    rcases startsAt_cons.1 he with ⟨rfl, rfl⟩ | he
    · exact ⟨0, _, rfl, rfl, hc⟩
    · obtain ⟨k, c, hk, hslot, hc⟩ := ih he
      exact ⟨k + 2, c, by omega, hslot, hc⟩
  | last hc htwo =>
    rcases startsAt_cons.1 he with ⟨rfl, rfl⟩ | ⟨before, after, heq, -⟩
    · exact ⟨0, _, rfl, rfl, hc⟩
    · simp at heq

/-- Nothing stands in the slot after the first one of an entry that takes two. -/
theorem getElem?_second (h : Placed entries slots) {k : Nat} {e : PoolEntry} (he : StartsAt entries k e)
    (htwo : e.kind.slots = 2) (hk : k < slots.length) : slots[k]? = some none := by
  induction h generalizing k with
  | nil => simp at hk
  | @narrow d c entries slots hc hone _ ih =>
    rcases startsAt_cons.1 he with ⟨-, rfl⟩ | he
    · omega
    · obtain ⟨k, rfl⟩ : ∃ j, k = j + 1 := ⟨k - 1, by have := he.pos; omega⟩
      refine ih (k := k) ?_ (by simpa using hk)
      simpa [hone] using he
  | @wide d c entries slots hc _ _ ih =>
    rcases startsAt_cons.1 he with ⟨hk, rfl⟩ | he
    · obtain rfl : k = 1 := by omega
      rfl
    · obtain ⟨k, rfl⟩ : ∃ j, k = j + 2 := ⟨k - 2, by have := he.pos; omega⟩
      refine ih (k := k) ?_ (by simpa using hk)
      have hshift : ((k + 2 : Nat) : Int) - d.kind.slots = k := by omega
      rwa [hshift] at he
  | last hc _ =>
    have := he.pos
    simp at hk
    omega

/-- What stands in each slot: an entry that starts there, or the second half of one. -/
theorem standing (h : Placed entries slots) {k : Nat} (hk : k < slots.length) :
    (∃ e, StartsAt entries (k + 1 : Nat) e) ∨ ∃ e, StartsAt entries k e ∧ e.kind.slots = 2 := by
  induction h generalizing k with
  | nil => simp at hk
  | @narrow d c entries slots hc hone _ ih =>
    cases k with
    | zero => exact .inl ⟨d, startsAt_cons.2 (.inl ⟨rfl, rfl⟩)⟩
    | succ k =>
      have hshift (n : Nat) : ((n + 1 : Nat) : Int) - d.kind.slots = n := by omega
      rcases ih (show k < slots.length by simpa using hk) with ⟨e, he⟩ | ⟨e, he, htwo⟩
      · exact .inl ⟨e, startsAt_cons.2 (.inr (by rwa [hshift]))⟩
      · exact .inr ⟨e, startsAt_cons.2 (.inr (by rwa [hshift])), htwo⟩
  | @wide d c entries slots hc htwo _ ih =>
    rcases k with _ | _ | k
    · exact .inl ⟨d, startsAt_cons.2 (.inl ⟨rfl, rfl⟩)⟩
    · exact .inr ⟨d, startsAt_cons.2 (.inl ⟨rfl, rfl⟩), htwo⟩
    · have hshift (n : Nat) : ((n + 2 : Nat) : Int) - d.kind.slots = n := by omega
      rcases ih (show k < slots.length by simpa using hk) with ⟨e, he⟩ | ⟨e, he, htwo⟩
      · exact .inl ⟨e, startsAt_cons.2 (.inr (by rwa [hshift]))⟩
      · exact .inr ⟨e, startsAt_cons.2 (.inr (by rwa [hshift])), htwo⟩
  | @last d c hc htwo =>
    obtain rfl : k = 0 := by simpa using hk
    exact .inl ⟨d, startsAt_cons.2 (.inl ⟨rfl, rfl⟩)⟩

end Placed

/-! ### Lookups -/

namespace Pool

variable {p : Pool} {i : Int} {wanted : Wanted} {f : Fault} {c : Constant} {e : PoolEntry}

theorem lookup_of_error (h : p.entry i wanted = .error f) : p.lookup wanted i = .error f := by
  cases wanted with
  | utf8 =>
    show p.utf8 i = _
    rw [utf8, h]
    rfl
  | classRef =>
    show p.className i = _
    rw [className, h]
    rfl
  | memberRef =>
    show p.memberOwner i = _
    rw [memberOwner, h]
    rfl

/-- A lookup refuses a constant of another kind. -/
theorem lookup_of_refused (h : p.entry i wanted = .ok c) (hc : wanted.accepts c.found = false) :
    p.lookup wanted i = .error (.unresolved i wanted c.found) := by
  cases wanted with
  | utf8 =>
    show p.utf8 i = _
    rw [utf8, h]
    cases c with
    | utf8 => cases hc
    | _ => rfl
  | classRef =>
    show p.className i = _
    rw [className, h]
    cases c with
    | classRef => cases hc
    | _ => rfl
  | memberRef =>
    show p.memberOwner i = _
    rw [memberOwner, h]
    cases c with
    | memberRef => cases hc
    | _ => rfl

/-- A class is looked up by its name. -/
theorem lookup_class {nameIndex : Nat} (h : p.entry i .classRef = .ok (.classRef nameIndex)) : p.lookup .classRef i =
    p.lookup .utf8 nameIndex >>= fun text => (Descriptor.entryName text).mapError .badDescriptor := by
  show p.className i = p.utf8 nameIndex >>= _
  rw [className, h]
  cases htext : p.utf8 nameIndex with
  | error f => simp only [bind, Except.bind, htext]
  | ok text =>
    simp only [bind, Except.bind, htext]
    cases Descriptor.entryName text <;> rfl

/-- A member is looked up by its class. -/
theorem lookup_member {kind : MemberKind} {classIndex n : Nat}
    (h : p.entry i .memberRef = .ok (.memberRef kind classIndex n)) :
    p.lookup .memberRef i = p.lookup .classRef classIndex := by
  show p.memberOwner i = p.className classIndex
  rw [memberOwner, h]
  rfl

theorem getElem?_slots (h : p.slots.toList = none :: slots) (k : Nat) : p.slots[k + 1]? = slots[k]? := by
  rw [← Array.getElem?_toList, h, List.getElem?_cons_succ]

theorem size_eq (h : p.slots.toList = none :: slots) : p.size = slots.length + 1 := by
  rw [size, ← Array.length_toList, h, List.length_cons]

/-- A pool that holds entries in its slots, from one on. -/
def Keeps (p : Pool) (entries : List PoolEntry) : Prop :=
  ∃ slots, p.slots.toList = none :: slots ∧ Placed entries slots

namespace Keeps

theorem exists_stores (h : p.Keeps entries) (he : StartsAt entries i e) : ∃ c, Stores e c := by
  obtain ⟨slots, -, hplaced⟩ := h
  obtain ⟨_, c, -, -, hc⟩ := hplaced.getElem?_of_startsAt he
  exact ⟨c, hc⟩

/-- The entry that starts at an index is looked up there. -/
theorem entry_eq_ok (h : p.Keeps entries) (he : StartsAt entries i e) (hc : Stores e c) : p.entry i wanted = .ok c := by
  obtain ⟨slots, hslots, hplaced⟩ := h
  obtain ⟨k, d, rfl, hslot, hd⟩ := hplaced.getElem?_of_startsAt he
  obtain rfl := hc.unique hd
  exact Pool.entry_eq_ok.2 ⟨Nat.succ_pos k, (getElem?_slots hslots k).trans hslot⟩

/-- Something stands at every index. -/
theorem exists_standing (h : p.Keeps entries) (i : Int) : ∃ found, Standing p.size entries i found := by
  obtain ⟨slots, hslots, hplaced⟩ := h
  by_cases hrange : i ≤ 0 ∨ p.size ≤ i
  · exact ⟨_, .outOfRange hrange⟩
  · rw [size_eq hslots] at hrange ⊢
    obtain ⟨k, rfl⟩ : ∃ k : Nat, i = (k + 1 : Nat) := ⟨(i - 1).toNat, by omega⟩
    rcases hplaced.standing (show k < slots.length by omega) with ⟨e, he⟩ | ⟨e, he, htwo⟩
    · exact ⟨_, .entry he⟩
    · refine ⟨_, .unusable (e := e) ?_ htwo (by omega)⟩
      simpa using he

/-- A lookup fails where something else stands than is wanted. -/
theorem lookup_of_standing (h : p.Keeps entries) {found : Found} (hfound : Standing p.size entries i found)
    (hwanted : wanted.accepts found = false) : p.lookup wanted i = .error (.unresolved i wanted found) := by
  cases hfound with
  | outOfRange hrange =>
    refine lookup_of_error ?_
    by_cases hi : i ≤ 0
    · exact if_pos hi
    · have hnone : p.slots[i.toNat]? = none := Array.getElem?_eq_none (by rw [size] at hrange; omega)
      rw [entry, if_neg hi, hnone]
  | @unusable e he htwo hlt =>
    obtain ⟨slots, hslots, hplaced⟩ := h
    rw [size_eq hslots] at hlt
    obtain ⟨k, rfl⟩ : ∃ k : Nat, i = (k + 1 : Nat) := ⟨(i - 1).toNat, by have := he.pos; omega⟩
    have hnone : slots[k]? = some none := hplaced.getElem?_second (e := e) (by simpa using he) htwo (by omega)
    refine lookup_of_error ?_
    rw [entry, if_neg (by omega), Int.toNat_natCast, getElem?_slots hslots, hnone]
  | entry he =>
    obtain ⟨c, hc⟩ := h.exists_stores he
    rw [← hc.found_eq] at hwanted ⊢
    exact lookup_of_refused (h.entry_eq_ok he hc) hwanted

/-- What is to be found is looked up. -/
theorem lookup_of_finds (h : p.Keeps entries) {text : Text} (hfinds : Finds entries wanted i text) :
    p.lookup wanted i = .ok text := by
  induction hfinds with
  | text he htext =>
    obtain ⟨raw, hc⟩ := PoolEntry.isText_iff.1 htext
    show p.utf8 _ = _
    rw [utf8, h.entry_eq_ok he hc]
    rfl
  | className he hclass _ hname ih =>
    rw [lookup_class (h.entry_eq_ok he (PoolEntry.isClass_iff.1 hclass)), ih]
    show (Descriptor.entryName _).mapError _ = _
    rw [hname]
    rfl
  | owner he hmember _ ih =>
    obtain ⟨kind, n, hc⟩ := PoolEntry.isMember_iff.1 hmember
    rw [lookup_member (h.entry_eq_ok he hc), ih]

/-- A lookup that is to fail fails. -/
theorem lookup_of_fails (h : p.Keeps entries) (hfails : Fails p.size entries wanted i f) :
    p.lookup wanted i = .error f := by
  induction hfails with
  | standing hfound hwanted => exact h.lookup_of_standing hfound hwanted
  | name he hclass _ ih =>
    rw [lookup_class (h.entry_eq_ok he (PoolEntry.isClass_iff.1 hclass)), ih]
    rfl
  | spelling he hclass htext hname =>
    rw [lookup_class (h.entry_eq_ok he (PoolEntry.isClass_iff.1 hclass)), h.lookup_of_finds htext]
    show (Descriptor.entryName _).mapError _ = _
    rw [hname]
    rfl
  | owner he hmember _ ih =>
    obtain ⟨kind, n, hc⟩ := PoolEntry.isMember_iff.1 hmember
    rw [lookup_member (h.entry_eq_ok he hc), ih]

/-- A lookup fails at once, or an entry of the kind wanted starts at the index. -/
theorem fails_or_stores (h : p.Keeps entries) (wanted : Wanted) (i : Int) : (∃ f, Fails p.size entries wanted i f) ∨
    ∃ e c, StartsAt entries i e ∧ Stores e c ∧ wanted.accepts c.found = true := by
  obtain ⟨found, hfound⟩ := h.exists_standing i
  cases hwanted : wanted.accepts found with
  | false => exact .inl ⟨_, .standing hfound hwanted⟩
  | true =>
    cases hfound with
    | outOfRange => cases wanted <;> cases hwanted
    | unusable => cases wanted <;> cases hwanted
    | @entry e he =>
      obtain ⟨c, hc⟩ := h.exists_stores he
      exact .inr ⟨e, c, he, hc, by rwa [hc.found_eq]⟩

theorem fails_or_finds_text (h : p.Keeps entries) (i : Int) :
    (∃ f, Fails p.size entries .utf8 i f) ∨ ∃ text, Finds entries .utf8 i text := by
  rcases h.fails_or_stores .utf8 i with hfails | ⟨e, c, he, hc, hwanted⟩
  · exact .inl hfails
  · cases c with
    | utf8 raw text => exact .inr ⟨text, .text he (PoolEntry.isText_iff.2 ⟨raw, hc⟩)⟩
    | _ => cases hwanted

theorem fails_or_finds_class (h : p.Keeps entries) (i : Int) :
    (∃ f, Fails p.size entries .classRef i f) ∨ ∃ name, Finds entries .classRef i name := by
  rcases h.fails_or_stores .classRef i with hfails | ⟨e, c, he, hc, hwanted⟩
  · exact .inl hfails
  · cases c with
    | classRef nameIndex =>
      have hclass := PoolEntry.isClass_iff.2 hc
      rcases h.fails_or_finds_text nameIndex with ⟨f, hf⟩ | ⟨text, htext⟩
      · exact .inl ⟨f, .name he hclass hf⟩
      · cases hname : Descriptor.entryName text with
        | error f => exact .inl ⟨_, .spelling he hclass htext hname⟩
        | ok name => exact .inr ⟨name, .className he hclass htext hname⟩
    | _ => cases hwanted

/-- Every lookup is to find something or to fail. -/
theorem fails_or_finds (h : p.Keeps entries) (wanted : Wanted) (i : Int) :
    (∃ f, Fails p.size entries wanted i f) ∨ ∃ text, Finds entries wanted i text := by
  cases wanted with
  | utf8 => exact h.fails_or_finds_text i
  | classRef => exact h.fails_or_finds_class i
  | memberRef =>
    rcases h.fails_or_stores .memberRef i with hfails | ⟨e, c, he, hc, hwanted⟩
    · exact .inl hfails
    · cases c with
      | memberRef kind classIndex n =>
        have hmember := PoolEntry.isMember_iff.2 ⟨kind, n, hc⟩
        rcases h.fails_or_finds_class classIndex with ⟨f, hf⟩ | ⟨owner, howner⟩
        · exact .inl ⟨f, .owner he hmember hf⟩
        · exact .inr ⟨owner, .owner he hmember howner⟩
      | _ => cases hwanted

/-- A pool that holds entries serves them. -/
theorem serves (h : p.Keeps entries) : p.Serves p.size entries where
  size := rfl
  ok wanted i text := by
    refine ⟨fun hok => ?_, h.lookup_of_finds⟩
    rcases h.fails_or_finds wanted i with ⟨f, hf⟩ | ⟨text', htext⟩
    · rw [h.lookup_of_fails hf] at hok
      cases hok
    · rw [h.lookup_of_finds htext] at hok
      cases hok
      exact htext
  error wanted i f := by
    refine ⟨fun herror => ?_, h.lookup_of_fails⟩
    rcases h.fails_or_finds wanted i with ⟨f', hf⟩ | ⟨text, htext⟩
    · rw [h.lookup_of_fails hf] at herror
      cases herror
      exact hf
    · rw [h.lookup_of_finds htext] at herror
      cases herror

end Keeps

/-! ### Reading -/

/-- A pool that can be stored holds the entries of a format. -/
theorem WellFormed.exists_keeps (h : p.WellFormed) :
    ∃ entries, IsPool p.size entries ∧ p.Keeps entries ∧ p.encode = poolBytes p.size entries := by
  obtain ⟨hsize, slots, hslots, hfilled⟩ := h
  obtain ⟨entries, hplaced⟩ := exists_placed_of_filled hfilled
  have hcount := size_eq hslots
  refine ⟨entries, ⟨by omega, hsize, hplaced.valid, ?_⟩, ⟨slots, hslots, hplaced⟩, ?_⟩
  · rw [hcount]
    exact hplaced.fill
  · rw [encode, hslots, List.flatMap_cons, hplaced.flatMap_eq]
    rfl

end Pool

/-- The entries of a format are held by a pool that can be stored. -/
theorem IsPool.exists_keeps {count : Nat} (h : IsPool count entries) :
    ∃ p : Pool, p.WellFormed ∧ p.Keeps entries ∧ p.size = count ∧ p.encode = poolBytes count entries := by
  obtain ⟨slots, hlen, hplaced⟩ := h.fill.exists_placed h.valid
  obtain ⟨p, hslots⟩ : ∃ p : Pool, p.slots.toList = none :: slots := ⟨⟨(none :: slots).toArray⟩, rfl⟩
  have hsize : p.size = count := by
    have hpos := h.pos
    rw [Pool.size_eq hslots, hlen]
    omega
  refine ⟨p, ⟨hsize ▸ h.lt, slots, hslots, hplaced.filled⟩, ⟨slots, hslots, hplaced⟩, hsize, ?_⟩
  rw [Pool.encode, hsize, hslots, List.flatMap_cons, hplaced.flatMap_eq]
  rfl

namespace Pool

/-- No pool is read where no bytes are left. -/
theorem rest_ne_nil_of_read {r r' : Reader} {p : Pool} (h : read r = .ok (p, r')) : r.rest ≠ [] := by
  intro hrest
  have hle : r.buffer.size ≤ r.offset := by simpa [Reader.rest] using hrest
  have hcount : Reader.u2 r = .error (.truncated 2 r.remaining r.offset) := by
    show Reader.bytes 2 r >>= _ = _
    rw [bytes_short (.inr (by rw [Reader.remaining]; omega))]
    rfl
  have herror : read r = .error (.truncated 2 r.remaining r.offset) := by
    show Reader.u2 r >>= _ = _
    rw [hcount]
    rfl
  rw [herror] at h
  cases h

theorem exists_isPool_of_read {r r' : Reader} {p : Pool} (h : read r = .ok (p, r')) :
    ∃ count entries rest, IsPool count entries ∧ r.rest = poolBytes count entries ++ rest := by
  have hbetween := Reader.between_rest (rest_ne_nil_of_read h)
  obtain ⟨_, rest, ⟨hwf, rfl⟩, hrest, -⟩ := exact_read.read_sound hbetween h
  obtain ⟨entries, hpool, -, hencode⟩ := hwf.exists_keeps
  exact ⟨p.size, entries, rest, hpool, by rw [hrest, hencode]⟩

theorem read_of_isPool {r : Reader} {count : Nat} {rest : List UInt8} (hpool : IsPool count entries)
    (hrest : r.rest = poolBytes count entries ++ rest) :
    ∃ p, read r = .ok (p, { r with offset := r.offset + (poolBytes count entries).length }) ∧ p.Serves count entries := by
  have hne : r.rest ≠ [] := by
    intro hnil
    have hlen := congrArg List.length (hnil.symm.trans hrest)
    rw [poolBytes, List.length_append, List.length_append, length_numeral, List.length_nil] at hlen
    omega
  have hbetween := Reader.between_rest hne
  obtain ⟨p, hwf, hkeeps, rfl, hencode⟩ := hpool.exists_keeps
  rw [hrest, ← hencode] at hbetween
  obtain ⟨r', hr', hbetween'⟩ := exact_read.read_whole ⟨hwf, rfl⟩ hbetween
  rw [hbetween'.unique hbetween.advance, hencode] at hr'
  exact ⟨p, hr', hkeeps.serves⟩

/-- A constant pool is read from a position just when the bytes of one stand there. Then the reader stands after its last
entry, whatever follows it, and every lookup in the pool comes to what the entries say. -/
theorem read_exact (r : Reader) :
    ((∃ p r', read r = .ok (p, r')) ↔
      ∃ count entries rest, IsPool count entries ∧ r.rest = poolBytes count entries ++ rest) ∧
    ∀ count entries rest, IsPool count entries → r.rest = poolBytes count entries ++ rest →
      ∃ p, read r = .ok (p, { r with offset := r.offset + (poolBytes count entries).length }) ∧ p.Serves count entries := by
  refine ⟨⟨?_, ?_⟩, fun count entries rest hpool hrest => read_of_isPool hpool hrest⟩
  · rintro ⟨p, r', h⟩
    exact exists_isPool_of_read h
  · rintro ⟨count, entries, rest, hpool, hrest⟩
    obtain ⟨p, h, -⟩ := read_of_isPool hpool hrest
    exact ⟨p, _, h⟩

end Pool

end Coupling.ClassFile
