import Coupling.ClassFile.Decode

/-!
# Decoders that are exact

A decoder stands for a relation between byte strings and values: those bytes are read as this value. It is *exact* for a
relation when three things hold. Bytes that the relation knows are taken whole, whatever follows them, and give their
value. If the buffer ends inside such bytes, the decoder finds it malformed. And whatever the decoder gives, the relation
knows the bytes that it took.

Every combinator of the decoders keeps exactness, and the relation of the result is built from those of the parts. So the
relation of a whole decoder is found without ever looking at a run of it. What the relation knows may depend on the bytes
before, because the operands of some instructions begin at a multiple of four.
-/

namespace Coupling.ClassFile

open Decoder

variable {α β : Type}

/-- A reader that stands between two parts of its buffer. -/
structure Reader.Between (r : Reader) (before after : List UInt8) : Prop where
  buffer : r.buffer.toList = before ++ after
  offset : r.offset = before.length

namespace Reader.Between

variable {r : Reader} {before after : List UInt8}

theorem start (bytes : List UInt8) : Between ⟨bytes.toArray, 0⟩ [] bytes := ⟨rfl, rfl⟩

theorem rest_eq (h : r.Between before after) : r.rest = after := by
  rw [Reader.rest, h.buffer, h.offset, List.drop_left]

theorem remaining_eq (h : r.Between before after) : r.remaining = after.length := by
  have hsize : r.buffer.size = before.length + after.length := by
    rw [← Array.length_toList, h.buffer, List.length_append]
  rw [Reader.remaining, hsize, h.offset]
  omega

theorem offset_le (h : r.Between before after) : r.offset ≤ r.buffer.size := by
  rw [← Array.length_toList, h.buffer, h.offset, List.length_append]
  omega

/-- The reader after it has moved on. -/
theorem advance {bytes : List UInt8} (h : r.Between before (bytes ++ after)) :
    Between { r with offset := r.offset + bytes.length } (before ++ bytes) after := by
  refine ⟨?_, ?_⟩
  · rw [h.buffer, List.append_assoc]
  · rw [h.offset, List.length_append]

/-- What lies before and after a reader tells where it stands. -/
theorem unique {r' : Reader} (h : r.Between before after) (h' : r'.Between before after) : r = r' := by
  obtain ⟨buffer, offset⟩ := r
  obtain ⟨buffer', offset'⟩ := r'
  obtain rfl : buffer = buffer' := Array.toList_inj.1 (h.buffer.trans h'.buffer.symm)
  obtain rfl : offset = offset' := h.offset.trans h'.offset.symm
  rfl

end Reader.Between

theorem Reader.between_of_le {r : Reader} (h : r.offset ≤ r.buffer.size) :
    r.Between (r.buffer.toList.take r.offset) r.rest := by
  refine ⟨(List.take_append_drop ..).symm, ?_⟩
  rw [List.length_take, Array.length_toList, Nat.min_eq_left h]

/-- A reader that has bytes left stands in its buffer. -/
theorem Reader.between_rest {r : Reader} (h : r.rest ≠ []) : r.Between (r.buffer.toList.take r.offset) r.rest := by
  have hlt : r.offset < r.buffer.size := by simpa [Reader.rest] using h
  exact between_of_le (Nat.le_of_lt hlt)

/-! ### Runs of decoders -/

namespace Decoder

variable {d : Decoder α} {k : α → Decoder β} {s s' : Progress} {a : α}

theorem bind_ok (h : d s = .ok a s') : (d >>= k) s = k a s' := by
  show EStateM.bind d k s = _
  rw [EStateM.bind, h]

theorem bind_error {f : Fault} (h : d s = .error f s') : (d >>= k) s = .error f s' := by
  show EStateM.bind d k s = _
  rw [EStateM.bind, h]

/-- What a decoder in two parts gives, its second part gives on what its first part gave. -/
theorem of_bind_ok {b : β} {s'' : Progress} (h : (d >>= k) s = .ok b s'') :
    ∃ a s', d s = .ok a s' ∧ k a s' = .ok b s'' := by
  cases hd : d s with
  | ok a s' => rw [bind_ok hd] at h; exact ⟨a, s', rfl, h⟩
  | error f s' => rw [bind_error hd] at h; cases h

theorem ofRead_ok {x : Read α} {r : Reader} (h : x s.reader = .ok (a, r)) :
    ofRead x s = .ok a { s with reader := r } := by
  rw [ofRead, h]

theorem ofRead_error {x : Read α} {f : Fault} (h : x s.reader = .error f) : ofRead x s = .error f s := by
  rw [ofRead, h]

/-- A reading in two parts differs from its parts run one after the other only in where it stands when it fails. -/
theorem ofRead_bind (x : Read α) (f : α → Read β) (s : Progress) :
    ofRead (x >>= f) s = (ofRead x >>= fun a => ofRead (f a)) s ∨
      ∃ g s', ofRead (x >>= f) s = .error g s ∧ (ofRead x >>= fun a => ofRead (f a)) s = .error g s' := by
  cases hx : x s.reader with
  | error g =>
    have h : (x >>= f) s.reader = .error g := by
      show x s.reader >>= _ = _
      rw [hx]
      rfl
    exact .inl ((ofRead_error h).trans (bind_error (ofRead_error hx)).symm)
  | ok p =>
    obtain ⟨a, r⟩ := p
    have h : (x >>= f) s.reader = f a r := by
      show x s.reader >>= _ = _
      rw [hx]
      rfl
    rw [bind_ok (ofRead_ok hx)]
    cases hf : f a r with
    | error g => exact .inr ⟨g, _, ofRead_error (h.trans hf), ofRead_error hf⟩
    | ok q => exact .inl ((ofRead_ok (h.trans hf)).trans (ofRead_ok (s := { s with reader := r }) hf).symm)

end Decoder

/-! ### Exactness -/

/-- After `before`, the decoder reads `bytes` as `a`: it takes these bytes whatever follows them, and finds the buffer
malformed when it ends inside them. -/
structure Reads (d : Decoder α) (before bytes : List UInt8) (a : α) : Prop where
  whole : ∀ {s : Progress} {after : List UInt8}, s.reader.Between before (bytes ++ after) →
    ∃ s', d s = .ok a s' ∧ s'.reader.Between (before ++ bytes) after
  cut : ∀ {s : Progress} {part : List UInt8}, s.reader.Between before part → part <+: bytes → part ≠ bytes →
    ∃ f s', d s = .error f s' ∧ f.isMalformed = true

/-- What bytes, after other bytes, stand for. -/
abbrev Meaning (α : Type) := (before bytes : List UInt8) → α → Prop

/-- A decoder reads exactly what a relation says. -/
structure Exact (d : Decoder α) (R : Meaning α) : Prop where
  reads : ∀ {before bytes : List UInt8} {a : α}, R before bytes a → Reads d before bytes a
  sound : ∀ {s s' : Progress} {before after : List UInt8} {a : α}, s.reader.Between before after → d s = .ok a s' →
    ∃ bytes rest, R before bytes a ∧ after = bytes ++ rest ∧ s'.reader.Between (before ++ bytes) rest

/-- A decoder that reads nothing and gives `a`, possibly with remarks. -/
def Quiet (d : Decoder α) (a : α) : Prop := ∀ s, ∃ notes, d s = .ok a { s with notes }

/-- No bytes stand for one value. -/
def Meaning.nothing (a : α) : Meaning α := fun _ bytes b => bytes = [] ∧ b = a

/-- The meaning of pieces that are each laid out in one way. -/
def Meaning.of (valid : α → Prop) (encode : α → List UInt8) : Meaning α := fun _ bytes a =>
  valid a ∧ bytes = encode a

/-- First some bytes, then others, whose meaning may depend on that of the first. -/
def Meaning.seq (R : Meaning α) (S : α → Meaning β) : Meaning β := fun before bytes b =>
  ∃ a first second, R before first a ∧ S a (before ++ first) second b ∧ bytes = first ++ second

/-- What is left of the meaning of bytes when the first of them are known. -/
def Meaning.behind (first : List UInt8) (R : Meaning α) : Meaning α := fun before bytes a =>
  ∃ rest, R (before ++ first) rest a ∧ bytes = first ++ rest

namespace Meaning

variable {valid : α → Prop} {encode : α → List UInt8} {S : α → Meaning β} {before first bytes : List UInt8}

/-! A row of pieces that are each laid out in one way is taken apart from the left, piece by piece. -/

theorem seq_of {b : β} : (of valid encode).seq S before bytes b ↔
    ∃ a, valid a ∧ (S a).behind (encode a) before bytes b := by
  constructor
  · rintro ⟨a, _, rest, ⟨ha, rfl⟩, hS, rfl⟩
    exact ⟨a, ha, rest, hS, rfl⟩
  · rintro ⟨a, ha, rest, hS, rfl⟩
    exact ⟨a, _, rest, ⟨ha, rfl⟩, hS, rfl⟩

theorem behind_seq_of {b : β} : ((of valid encode).seq S).behind first before bytes b ↔
    ∃ a, valid a ∧ (S a).behind (first ++ encode a) before bytes b := by
  simp only [behind, seq_of, List.append_assoc]
  constructor
  · rintro ⟨_, ⟨a, ha, rest, hS, rfl⟩, rfl⟩
    exact ⟨a, ha, rest, hS, rfl⟩
  · rintro ⟨a, ha, rest, hS, rfl⟩
    exact ⟨_, ⟨a, ha, rest, hS, rfl⟩, rfl⟩

theorem behind_of {a : α} : (of valid encode).behind first before bytes a ↔ valid a ∧ bytes = first ++ encode a := by
  constructor
  · rintro ⟨_, ⟨ha, rfl⟩, rfl⟩
    exact ⟨ha, rfl⟩
  · rintro ⟨ha, rfl⟩
    exact ⟨_, ⟨ha, rfl⟩, rfl⟩

theorem behind_nothing {a b : α} : (nothing a).behind first before bytes b ↔ bytes = first ∧ b = a := by
  constructor
  · rintro ⟨_, ⟨rfl, rfl⟩, rfl⟩
    exact ⟨List.append_nil first, rfl⟩
  · rintro ⟨rfl, rfl⟩
    exact ⟨[], ⟨rfl, rfl⟩, (List.append_nil bytes).symm⟩

end Meaning

namespace Reads

variable {before first second bytes : List UInt8} {a : α} {b : β}

protected theorem pure : Reads (pure a) before [] a where
  whole h := ⟨_, rfl, by simpa using h⟩
  cut _ hp hne := absurd (List.prefix_nil.1 hp) hne

protected theorem bind {d : Decoder α} {k : α → Decoder β} (hd : Reads d before first a)
    (hk : Reads (k a) (before ++ first) second b) : Reads (d >>= k) before (first ++ second) b where
  whole h := by
    rw [List.append_assoc] at h
    obtain ⟨s₁, h₁, hs₁⟩ := hd.whole h
    obtain ⟨s₂, h₂, hs₂⟩ := hk.whole hs₁
    exact ⟨s₂, (bind_ok h₁).trans h₂, by rwa [List.append_assoc] at hs₂⟩
  cut {s part} h hp hne := by
    -- The buffer ends inside the first bytes, or the first bytes are whole and it ends inside the second.
    obtain ⟨missing, hm⟩ := hp
    have inside {rest} (hs : s.reader.Between before (first ++ rest)) (hr : rest <+: second) (hrne : rest ≠ second) :
        ∃ f s', (d >>= k) s = .error f s' ∧ f.isMalformed = true := by
      obtain ⟨s₁, h₁, hs₁⟩ := hd.whole hs
      obtain ⟨f, s₂, h₂, hf⟩ := hk.cut hs₁ hr hrne
      exact ⟨f, s₂, (bind_ok h₁).trans h₂, hf⟩
    rcases List.append_eq_append_iff.1 hm with ⟨more, rfl, rfl⟩ | ⟨rest, rfl, rfl⟩
    · by_cases hmore : more = []
      · subst hmore
        refine inside (by simpa using h) List.nil_prefix ?_
        rintro rfl
        exact hne (by simp)
      · obtain ⟨f, s₁, h₁, hf⟩ := hd.cut h (List.prefix_append ..) (by simpa using hmore)
        exact ⟨f, s₁, bind_error h₁, hf⟩
    · exact inside h (List.prefix_append ..) (fun heq => hne (by rw [← heq]))

end Reads

namespace Exact

variable {d : Decoder α} {k : α → Decoder β} {R R' : Meaning α} {S : α → Meaning β}

theorem congr (h : Exact d R) (hR : ∀ before bytes a, R before bytes a ↔ R' before bytes a) : Exact d R' where
  reads hr := h.reads ((hR ..).2 hr)
  sound hs hd := by
    obtain ⟨bytes, rest, hr, hafter, hs'⟩ := h.sound hs hd
    exact ⟨bytes, rest, (hR ..).1 hr, hafter, hs'⟩

protected theorem pure (a : α) : Exact (pure a) (Meaning.nothing a) where
  reads := by
    rintro before _ _ ⟨rfl, rfl⟩
    exact .pure
  sound hs h := by
    cases h
    exact ⟨[], _, ⟨rfl, rfl⟩, rfl, by simpa using hs⟩

protected theorem throw (f : Fault) : Exact (throw f : Decoder α) fun _ _ _ => False where
  reads := False.elim
  sound _ h := by cases h

protected theorem bind (hd : Exact d R) (hk : ∀ a, Exact (k a) (S a)) : Exact (d >>= k) (R.seq S) where
  reads := by
    rintro before _ b ⟨a, first, second, hR, hS, rfl⟩
    exact (hd.reads hR).bind ((hk a).reads hS)
  sound hs h := by
    obtain ⟨a, s₁, h₁, h₂⟩ := of_bind_ok h
    obtain ⟨first, rest₁, hR, rfl, hs₁⟩ := hd.sound hs h₁
    obtain ⟨second, rest, hS, rfl, hs₂⟩ := (hk a).sound hs₁ h₂
    exact ⟨first ++ second, rest, ⟨a, first, second, hR, hS, rfl⟩, by rw [List.append_assoc],
      by rwa [List.append_assoc] at hs₂⟩

/-- A first step that reads nothing changes nothing. -/
theorem after_quiet {a : α} {S : Meaning β} (hd : Quiet d a) (hk : Exact (k a) S) : Exact (d >>= k) S where
  reads hS := by
    refine ⟨fun {s after} hs => ?_, fun {s part} hs hp hne => ?_⟩
    · obtain ⟨notes, h⟩ := hd s
      rw [bind_ok h]
      exact (hk.reads hS).whole hs
    · obtain ⟨notes, h⟩ := hd s
      rw [bind_ok h]
      exact (hk.reads hS).cut hs hp hne
  sound {s _ _ _ _} hs h := by
    obtain ⟨notes, hn⟩ := hd s
    rw [bind_ok hn] at h
    exact hk.sound (s := { s with notes }) hs h

/-- Two decoders that differ only in where they stand when they fail. -/
theorem of_agree {d' : Decoder α} (hd : Exact d' R)
    (h : ∀ s, d s = d' s ∨ ∃ f s₁ s₂, d s = .error f s₁ ∧ d' s = .error f s₂) : Exact d R where
  reads hR := by
    refine ⟨fun {s after} hs => ?_, fun {s part} hs hp hne => ?_⟩
    · obtain ⟨s', h', hs'⟩ := (hd.reads hR).whole hs
      rcases h s with heq | ⟨f, s₁, s₂, -, h₂⟩
      · exact ⟨s', heq.trans h', hs'⟩
      · rw [h₂] at h'
        cases h'
    · obtain ⟨f, s', h', hf⟩ := (hd.reads hR).cut hs hp hne
      rcases h s with heq | ⟨g, s₁, s₂, h₁, h₂⟩
      · exact ⟨f, s', heq.trans h', hf⟩
      · rw [h₂] at h'
        cases h'
        exact ⟨f, s₁, h₁, hf⟩
  sound {s _ _ _ _} hs hok := by
    rcases h s with heq | ⟨f, s₁, s₂, h₁, -⟩
    · exact hd.sound hs (heq ▸ hok)
    · rw [h₁] at hok
      cases hok

theorem read_bind {x : Read α} {f : α → Read β} (hx : Exact (ofRead x) R) (hf : ∀ a, Exact (ofRead (f a)) (S a)) :
    Exact (ofRead (x >>= f)) (R.seq S) := by
  refine of_agree (hx.bind hf) fun s => ?_
  rcases ofRead_bind x f s with h | ⟨g, s', h, h'⟩
  · exact .inl h
  · exact .inr ⟨g, s, s', h, h'⟩

theorem read_pure (a : α) : Exact (ofRead (pure a)) (Meaning.nothing a) := Exact.pure a

theorem read_throw (f : Fault) : Exact (ofRead (throw f : Read α)) fun _ _ _ => False := Exact.throw f

theorem read_bind_pure {x : Read α} (hx : Exact (ofRead x) R) (f : α → β) :
    Exact (ofRead (x >>= fun a => pure (f a))) fun before bytes b => ∃ a, R before bytes a ∧ b = f a := by
  refine (hx.read_bind fun a => read_pure (f a)).congr fun before bytes b => ?_
  constructor
  · rintro ⟨a, first, _, hR, ⟨rfl, rfl⟩, rfl⟩
    exact ⟨a, by rwa [List.append_nil], rfl⟩
  · rintro ⟨a, hR, rfl⟩
    exact ⟨a, bytes, [], hR, ⟨rfl, rfl⟩, by rw [List.append_nil]⟩

theorem read_map {x : Read α} (hx : Exact (ofRead x) R) (f : α → β) :
    Exact (ofRead (f <$> x)) fun before bytes b => ∃ a, R before bytes a ∧ b = f a := by
  rw [map_eq_pure_bind]
  exact hx.read_bind_pure f

theorem read_whole {x : Read α} (hx : Exact (ofRead x) R) {r : Reader} {before bytes after : List UInt8} {a : α}
    (hR : R before bytes a) (hr : r.Between before (bytes ++ after)) :
    ∃ r', x r = .ok (a, r') ∧ r'.Between (before ++ bytes) after := by
  obtain ⟨s', h, hs'⟩ := (hx.reads hR).whole (s := ⟨r, []⟩) hr
  cases hxr : x r with
  | error f =>
    rw [ofRead_error (s := ⟨r, []⟩) hxr] at h
    cases h
  | ok p =>
    rw [ofRead_ok (s := ⟨r, []⟩) hxr] at h
    cases h
    exact ⟨p.2, rfl, hs'⟩

theorem read_sound {x : Read α} (hx : Exact (ofRead x) R) {r r' : Reader} {before after : List UInt8} {a : α}
    (hr : r.Between before after) (h : x r = .ok (a, r')) :
    ∃ bytes rest, R before bytes a ∧ after = bytes ++ rest ∧ r'.Between (before ++ bytes) rest :=
  hx.sound (s := ⟨r, []⟩) hr (ofRead_ok h)

/-- A check that enough bytes are left changes nothing before a step that needs them. -/
theorem checked {k : Unit → Decoder α} {n : Int} {fault : Progress → Fault} (hk : Exact (k ()) R)
    (hshort : ∀ s, s.reader.remaining < n → ∃ f s', k () s = .error f s') (hfault : ∀ s, (fault s).isMalformed = true) :
    Exact (get >>= fun s : Progress => if s.reader.remaining < n then throw (fault s) >>= k else k ()) R := by
  have hrun : ∀ s, (get >>= fun s : Progress => if s.reader.remaining < n then throw (fault s) >>= k else k ()) s =
      if s.reader.remaining < n then .error (fault s) s else k () s := by
    intro s
    refine (bind_ok rfl).trans ?_
    split <;> rfl
  refine ⟨fun hR => ⟨fun {s after} hs => ?_, fun {s part} hs hp hne => ?_⟩, fun {s _ _ _ _} hs h => ?_⟩
  · obtain ⟨s', h, hs'⟩ := (hk.reads hR).whole hs
    refine ⟨s', ?_, hs'⟩
    rw [hrun, if_neg, h]
    intro hn
    obtain ⟨f, s₁, h₁⟩ := hshort s hn
    rw [h] at h₁
    cases h₁
  · rw [hrun]
    by_cases hn : s.reader.remaining < n
    · exact ⟨fault s, s, if_pos hn, hfault s⟩
    · rw [if_neg hn]
      exact (hk.reads hR).cut hs hp hne
  · rw [hrun] at h
    by_cases hn : s.reader.remaining < n
    · rw [if_pos hn] at h
      cases h
    · rw [if_neg hn] at h
      exact hk.sound hs h

end Exact

end Coupling.ClassFile
