import Coupling.Proofs.JsonScalars

/-!
# Reading JSON

Lists and records are read item by item, with blanks skipped around the items. `read` accepts exactly the texts of the
grammar and gives the datum they stand for, so no text stands for two data.
-/

namespace Coupling.Datum

open ModifiedUtf8 (joinPairs)

section

variable {α : Type} (item : Text → Option (α × Text)) (closing : CodePoint)

/-- Reads items with commas between them, to the closing bracket. -/
def listed : Nat → Text → Option (List α × Text)
  | 0, _ => none
  | fuel + 1, t =>
    (item (skip t)).bind fun r =>
      match skip r.2 with
      | [] => none
      | c :: rest =>
        if c = ',' then (listed fuel rest).map fun s => (r.1 :: s.1, s.2)
        else if c = closing then some ([r.1], rest)
        else none

/-- Reads items between brackets, behind the opening one. -/
def bracketed (fuel : Nat) (t : Text) : Option (List α × Text) :=
  match strip [closing] (skip t) with
  | some rest => some ([], rest)
  | none => listed item closing fuel t

/-- Reads an item under a name. -/
def member (fuel : Nat) (t : Text) : Option ((Text × α) × Text) :=
  (strip ['"'] t).bind fun t =>
    (string fuel t).bind fun name =>
      (strip [':'] (skip name.2)).bind fun t =>
        (item (skip t)).map fun r => ((joinPairs name.1, r.1), r.2)

end

/-- Reads a datum at the front of a text. The number bounds the nesting, and the items on one level. -/
def value : Nat → Text → Option (Datum × Text)
  | 0, _ => none
  | fuel + 1, t =>
    match t with
    | [] => none
    | c :: rest =>
      if c = '"' then (string fuel rest).map fun r => (.text (joinPairs r.1), r.2)
      else if c = '[' then (bracketed (value fuel) ']' fuel rest).map fun r => (.list r.1, r.2)
      else if c = '\x7b' then (bracketed (member (value fuel) fuel) '\x7d' fuel rest).map fun r => (.record r.1, r.2)
      else if inNumber c then (number? ((c :: rest).takeWhile inNumber)).map (·, (c :: rest).dropWhile inNumber)
      else words.findSome? fun w => (strip w.1 (c :: rest)).map (w.2, ·)

/-- Reads a whole text. -/
def read (t : Text) : Option Datum :=
  (value t.length (skip t)).bind fun r => if r.2.all isBlank then some r.1 else none

/-! ### Lists and records -/

/-- What may follow a datum: not a code point that a number goes on with. -/
def Stops (rest : Text) : Prop := ∀ c ∈ rest.head?, inNumber c = false

/-- How the text of an item begins: neither with a blank nor with a closing bracket. -/
def Begins (t : Text) : Prop := ∃ c t', t = c :: t' ∧ isBlank c = false ∧ c ≠ ']' ∧ c ≠ '\x7d'

/-- A bracket that ends a list or a record. -/
def IsClosing (c : CodePoint) : Prop := c = ']' ∨ c = '\x7d'

theorem not_inNumber_of_isBlank {c : CodePoint} (h : isBlank c = true) : inNumber c = false := by
  simp only [isBlank, Bool.or_eq_true, decide_eq_true_eq] at h
  rcases h with ((rfl | rfl) | rfl) | rfl <;> rfl

theorem stops_append {b rest : Text} (hb : Blanks b) (hrest : Stops rest) : Stops (b ++ rest) := by
  cases b with
  | nil => exact hrest
  | cons c b =>
    intro d hd
    cases hd
    exact not_inNumber_of_isBlank (hb c List.mem_cons_self)

theorem stops_of_isClosing {closing : CodePoint} (h : IsClosing closing) (rest : Text) : Stops (closing :: rest) := by
  intro c hc
  cases hc
  rcases h with rfl | rfl <;> rfl

theorem stops_comma (rest : Text) : Stops ((',' : CodePoint) :: rest) := by
  intro c hc
  cases hc
  rfl

theorem skip_closing {b : Text} (hb : Blanks b) {closing : CodePoint} (h : IsClosing closing) (rest : Text) :
    skip (b ++ closing :: rest) = closing :: rest := by
  refine skip_append hb fun c hc => ?_
  cases hc
  rcases h with rfl | rfl <;> rfl

theorem Begins.skip {t : Text} (h : Begins t) {b : Text} (hb : Blanks b) (rest : Text) :
    skip (b ++ (t ++ rest)) = t ++ rest := by
  obtain ⟨c, t, rfl, hc, -⟩ := h
  refine skip_append hb fun d hd => ?_
  cases hd
  exact hc

section

variable {α : Type} {Item : Text → α → Prop} {item : Text → Option (α × Text)} {closing : CodePoint} {fuel : Nat}

/-- Items are read as they are spelled: if one item is, then a row of them is. -/
theorem listed_append (hitem : ∀ t a rest, Item t a → t.length ≤ fuel → Stops rest → item (t ++ rest) = some (a, rest))
    (hbegins : ∀ t a, Item t a → Begins t) (hclosing : IsClosing closing) {u : Text} {items : List α} (h : Listed Item u items)
    (hfuel : u.length ≤ fuel) {count : Nat} (hcount : u.length ≤ count) (rest : Text) :
    listed item closing count (u ++ closing :: rest) = some (items, rest) := by
  have hpositive {t : Text} {a : α} (ha : Item t a) : 0 < t.length := by
    obtain ⟨c, t, rfl, -⟩ := hbegins t a ha
    simp
  induction h generalizing count with
  | @last b t b' a hb ha hb' =>
    have ht := hpositive ha
    simp only [List.length_append] at hfuel hcount
    obtain ⟨count, rfl⟩ : ∃ n, count = n + 1 := ⟨count - 1, by omega⟩
    have hread := hitem t a (b' ++ closing :: rest) ha (by omega) (stops_append hb' (stops_of_isClosing hclosing rest))
    have hcomma : closing ≠ ',' := by rcases hclosing with rfl | rfl <;> decide
    rw [List.append_assoc, List.append_assoc, listed, (hbegins t a ha).skip hb, hread, Option.bind_some]
    simp only [skip_closing hb' hclosing, if_neg hcomma, if_true]
  | @more b t b' u a items hb ha hb' _ ih =>
    have ht := hpositive ha
    simp only [List.length_append, List.length_cons] at hfuel hcount
    obtain ⟨count, rfl⟩ : ∃ n, count = n + 1 := ⟨count - 1, by omega⟩
    have hread := hitem t a (b' ++ (',' : CodePoint) :: (u ++ closing :: rest)) ha (by omega)
      (stops_append hb' (stops_comma _))
    have hskip : skip (b' ++ (',' : CodePoint) :: (u ++ closing :: rest)) = (',' : CodePoint) :: (u ++ closing :: rest) := by
      refine skip_append hb' fun c hc => ?_
      cases hc
      rfl
    have hmore : listed item closing count (u ++ closing :: rest) = some (items, rest) := ih (by omega) (by omega)
    rw [List.append_assoc, List.append_assoc, List.append_assoc, List.cons_append, listed, (hbegins t a ha).skip hb, hread,
      Option.bind_some]
    simp only [hskip, if_true, hmore, Option.map_some]

/-- Only rows of items are read. -/
theorem listed_eq_some (hitem : ∀ t a rest, item t = some (a, rest) → ∃ u, t = u ++ rest ∧ Item u a) {count : Nat}
    {t rest : Text} {items : List α} (h : listed item closing count t = some (items, rest)) :
    ∃ u, t = u ++ closing :: rest ∧ Listed Item u items := by
  induction count generalizing t items with
  | zero => cases h
  | succ count ih =>
    rw [listed] at h
    obtain ⟨⟨a, t'⟩, hfirst, h⟩ := Option.bind_eq_some_iff.1 h
    obtain ⟨u, hu, ha⟩ := hitem _ a t' hfirst
    obtain ⟨b, hb, ht⟩ := exists_blanks t
    obtain ⟨b', hb', ht'⟩ := exists_blanks t'
    split at h
    · cases h
    · next c more hmore =>
      dsimp only at hmore
      rw [hu, ht', hmore] at ht
      split at h
      · next hc =>
        obtain ⟨⟨items', rest'⟩, hlisted, heq⟩ := Option.map_eq_some_iff.1 h
        cases heq
        obtain ⟨u', rfl, hu'⟩ := ih hlisted
        refine ⟨_, ?_, .more hb ha hb' hu'⟩
        simp [ht, hc]
      · split at h
        · next hc =>
          cases h
          refine ⟨_, ?_, .last hb ha hb'⟩
          simp [ht, hc]
        · cases h

/-- A row of items begins with blanks and an item. -/
theorem listed_front (hbegins : ∀ t a, Item t a → Begins t) {u : Text} {items : List α} (h : Listed Item u items) :
    ∃ b t rest, u = b ++ (t ++ rest) ∧ Blanks b ∧ Begins t := by
  cases h with
  | last hb ha _ => exact ⟨_, _, _, rfl, hb, hbegins _ _ ha⟩
  | more hb ha _ _ => exact ⟨_, _, _, rfl, hb, hbegins _ _ ha⟩

theorem bracketed_append
    (hitem : ∀ t a rest, Item t a → t.length ≤ fuel → Stops rest → item (t ++ rest) = some (a, rest))
    (hbegins : ∀ t a, Item t a → Begins t) (hclosing : IsClosing closing) {opening : CodePoint} {u : Text} {items : List α}
    (h : Bracketed opening closing Item u items) (hfuel : u.length ≤ fuel + 1) (rest : Text) :
    ∃ u', u = opening :: u' ∧ bracketed item closing fuel (u' ++ rest) = some (items, rest) := by
  cases h with
  | @empty b hb =>
    refine ⟨b ++ [closing], rfl, ?_⟩
    have hstrip : strip [closing] (closing :: rest) = some rest := strip_append [closing] rest
    rw [bracketed, List.append_assoc, List.singleton_append, skip_closing hb hclosing, hstrip]
  | @full u _ hlisted =>
    refine ⟨u ++ [closing], rfl, ?_⟩
    have hstrip : strip [closing] (skip (u ++ closing :: rest)) = none := by
      obtain ⟨b, t, more, hu, hb, ht⟩ := listed_front hbegins hlisted
      rw [hu, List.append_assoc, List.append_assoc, ht.skip hb]
      obtain ⟨c, t, rfl, -, hlist, hrecord⟩ := ht
      have hne : closing ≠ c := by
        rcases hclosing with rfl | rfl
        · exact hlist.symm
        · exact hrecord.symm
      refine if_neg ?_
      intro h
      exact hne (List.cons_prefix_cons.1 h).1
    simp only [List.length_cons, List.length_append, List.length_nil] at hfuel
    rw [bracketed, List.append_assoc, List.singleton_append, hstrip]
    exact listed_append hitem hbegins hclosing hlisted (by omega) (by omega) rest

theorem bracketed_eq_some (hitem : ∀ t a rest, item t = some (a, rest) → ∃ u, t = u ++ rest ∧ Item u a) (opening : CodePoint)
    {t rest : Text} {items : List α} (h : bracketed item closing fuel t = some (items, rest)) :
    ∃ u, opening :: t = u ++ rest ∧ Bracketed opening closing Item u items := by
  unfold bracketed at h
  split at h
  · next hstrip =>
    cases h
    obtain ⟨b, hb, ht⟩ := exists_blanks t
    rw [strip_eq_some_iff.1 hstrip] at ht
    exact ⟨_, by simp [ht], .empty hb⟩
  · obtain ⟨u, rfl, hu⟩ := listed_eq_some hitem h
    exact ⟨_, by simp, .full hu⟩

theorem member_append
    (hitem : ∀ t a rest, Item t a → t.length ≤ fuel → Stops rest → item (t ++ rest) = some (a, rest))
    (hbegins : ∀ t a, Item t a → Begins t) {t rest : Text} {a : Text × α} (h : Member Item t a) (hfuel : t.length ≤ fuel)
    (hrest : Stops rest) : member item fuel (t ++ rest) = some (a, rest) := by
  cases h with
  | @mk n b b' t name a hname hb hb' ha =>
    obtain ⟨body, points, hpieces, rfl, rfl⟩ := hname
    simp only [List.length_append, List.length_cons, List.length_nil] at hfuel
    have hcolon : skip (b ++ (':' : CodePoint) :: (b' ++ (t ++ rest))) = (':' : CodePoint) :: (b' ++ (t ++ rest)) := by
      refine skip_append hb fun c hc => ?_
      cases hc
      rfl
    have hlength : body.length < fuel := by omega
    have hstring := string_append hpieces hlength (b ++ (':' : CodePoint) :: (b' ++ (t ++ rest)))
    have hread := hitem t a rest ha (by omega) hrest
    have hquote (u : Text) : strip ['"'] (('"' : CodePoint) :: u) = some u := strip_append ['"'] u
    have hmark (u : Text) : strip [':'] ((':' : CodePoint) :: u) = some u := strip_append [':'] u
    simp only [member, List.cons_append, List.append_assoc, List.nil_append, hquote, Option.bind_some, hstring, hcolon, hmark,
      (hbegins t a ha).skip hb', hread, Option.map_some]

theorem member_eq_some (hitem : ∀ t a rest, item t = some (a, rest) → ∃ u, t = u ++ rest ∧ Item u a) {t rest : Text}
    {a : Text × α} (h : member item fuel t = some (a, rest)) : ∃ u, t = u ++ rest ∧ Member Item u a := by
  unfold member at h
  obtain ⟨t₁, hquote, h⟩ := Option.bind_eq_some_iff.1 h
  obtain ⟨⟨points, t₂⟩, hstring, h⟩ := Option.bind_eq_some_iff.1 h
  obtain ⟨t₃, hcolon, h⟩ := Option.bind_eq_some_iff.1 h
  obtain ⟨⟨v, rest'⟩, hread, heq⟩ := Option.map_eq_some_iff.1 h
  cases heq
  obtain ⟨body, rfl, hpieces⟩ := string_eq_some hstring
  obtain ⟨b, hb, ht₂⟩ := exists_blanks t₂
  obtain ⟨b', hb', ht₃⟩ := exists_blanks t₃
  obtain ⟨u, hu, hv⟩ := hitem _ _ _ hread
  refine ⟨_, ?_, .mk ⟨body, points, hpieces, rfl, rfl⟩ hb hb' hv⟩
  dsimp only at hcolon
  rw [strip_eq_some_iff.1 hcolon, ht₃, hu] at ht₂
  rw [strip_eq_some_iff.1 hquote, ht₂]
  simp

end

/-! ### Data -/

theorem begins_of_inNumber {c : CodePoint} (h : inNumber c = true) (t : Text) : Begins (c :: t) := by
  refine ⟨c, t, rfl, ?_, ?_, ?_⟩
  · cases hblank : isBlank c with
    | false => rfl
    | true =>
      rw [not_inNumber_of_isBlank hblank] at h
      cases h
  · rintro rfl
    cases h
  · rintro rfl
    cases h

theorem Spells.begins {t : Text} {v : Datum} (h : Spells t v) : Begins t := by
  cases h with
  | word h =>
    simp only [words, List.mem_cons, Prod.mk.injEq, List.not_mem_nil, or_false] at h
    rcases h with ⟨rfl, -⟩ | ⟨rfl, -⟩ | ⟨rfl, -⟩ <;> exact ⟨_, _, rfl, by decide, by decide, by decide⟩
  | number h =>
    have hall := h.inNumber
    cases t with
    | nil => exact absurd rfl h.ne_nil
    | cons c t => exact begins_of_inNumber (List.all_eq_true.1 hall c List.mem_cons_self) t
  | text h =>
    obtain ⟨body, points, -, rfl, -⟩ := h
    exact ⟨_, _, rfl, by decide, by decide, by decide⟩
  | list h => cases h <;> exact ⟨_, _, rfl, by decide, by decide, by decide⟩
  | record h => cases h <;> exact ⟨_, _, rfl, by decide, by decide, by decide⟩

theorem Member.begins {α : Type} {Item : Text → α → Prop} {t : Text} {a : Text × α} (h : Member Item t a) : Begins t := by
  obtain ⟨⟨body, points, -, rfl, -⟩, -, -, -⟩ := h
  exact ⟨_, _, rfl, by decide, by decide, by decide⟩

/-- Data are read as they are spelled. -/
theorem value_append {fuel : Nat} {t rest : Text} {v : Datum} (h : Spells t v) (hfuel : t.length ≤ fuel) (hrest : Stops rest) :
    value fuel (t ++ rest) = some (v, rest) := by
  induction fuel generalizing t v rest with
  | zero =>
    obtain ⟨c, t, rfl, -⟩ := h.begins
    cases hfuel
  | succ fuel ih =>
    -- the recursive calls read the items, whose texts are shorter
    have hitem : ∀ t v rest, Spells t v → t.length ≤ fuel → Stops rest → value fuel (t ++ rest) = some (v, rest) :=
      fun t v rest h hlength hrest => ih h hlength hrest
    cases h with
    | word h =>
      simp only [words, List.mem_cons, Prod.mk.injEq, List.not_mem_nil, or_false] at h
      rcases h with ⟨rfl, rfl⟩ | ⟨rfl, rfl⟩ | ⟨rfl, rfl⟩
      · rfl
      · rfl
      · rfl
    | number h =>
      have hall := h.inNumber
      have hrun := takeWhile_append hall hrest
      have hleft := dropWhile_append hall hrest
      obtain ⟨c, t, rfl⟩ := List.exists_cons_of_ne_nil h.ne_nil
      have hc : inNumber c = true := List.all_eq_true.1 hall c List.mem_cons_self
      have hquote : c ≠ '"' := by rintro rfl; cases hc
      have hlist : c ≠ '[' := by rintro rfl; cases hc
      have hrecord : c ≠ '\x7b' := by rintro rfl; cases hc
      rw [List.cons_append] at hrun hleft ⊢
      rw [value]
      simp only [if_neg hquote, if_neg hlist, if_neg hrecord, hc, if_true, hrun, hleft, number?_eq_some_iff.2 h,
        Option.map_some]
    | text h =>
      obtain ⟨body, points, hpieces, rfl, rfl⟩ := h
      simp only [List.length_cons, List.length_append, List.length_nil] at hfuel
      have hlength : body.length < fuel := by omega
      have hstring := string_append hpieces hlength rest
      simp only [List.cons_append, List.append_assoc, List.nil_append, value, if_true, hstring, Option.map_some]
    | list h =>
      obtain ⟨u, rfl, hread⟩ := bracketed_append hitem (fun _ _ => Spells.begins) (.inl rfl) h hfuel rest
      have hquote : ('[' : CodePoint) ≠ '"' := by decide
      simp only [List.cons_append, value, if_neg hquote, if_true, hread, Option.map_some]
    | record h =>
      have hmember : ∀ t a rest, Member Spells t a → t.length ≤ fuel → Stops rest →
          member (value fuel) fuel (t ++ rest) = some (a, rest) :=
        fun t a rest h hlength hrest => member_append hitem (fun _ _ => Spells.begins) h hlength hrest
      obtain ⟨u, rfl, hread⟩ := bracketed_append hmember (fun _ _ => Member.begins) (.inr rfl) h hfuel rest
      have hquote : ('\x7b' : CodePoint) ≠ '"' := by decide
      have hlist : ('\x7b' : CodePoint) ≠ '[' := by decide
      simp only [List.cons_append, value, if_neg hquote, if_neg hlist, if_true, hread, Option.map_some]

/-- Only data are read. -/
theorem value_eq_some {fuel : Nat} {t rest : Text} {v : Datum} (h : value fuel t = some (v, rest)) :
    ∃ u, t = u ++ rest ∧ Spells u v := by
  induction fuel generalizing t v rest with
  | zero => cases h
  | succ fuel ih =>
    have hitem : ∀ t v rest, value fuel t = some (v, rest) → ∃ u, t = u ++ rest ∧ Spells u v := fun t v rest h => ih h
    rw [value.eq_def] at h
    dsimp only at h
    split at h
    · cases h
    · next c t =>
      split at h
      · next hc =>
        obtain ⟨⟨points, rest'⟩, hstring, heq⟩ := Option.map_eq_some_iff.1 h
        cases heq
        obtain ⟨body, rfl, hpieces⟩ := string_eq_some hstring
        exact ⟨_, by simp [hc], .text ⟨body, points, hpieces, rfl, rfl⟩⟩
      split at h
      · next hc =>
        obtain ⟨⟨items, rest'⟩, hread, heq⟩ := Option.map_eq_some_iff.1 h
        cases heq
        obtain ⟨u, hu, hitems⟩ := bracketed_eq_some hitem '[' hread
        exact ⟨u, hc ▸ hu, .list hitems⟩
      split at h
      · next hc =>
        obtain ⟨⟨fields, rest'⟩, hread, heq⟩ := Option.map_eq_some_iff.1 h
        cases heq
        obtain ⟨u, hu, hfields⟩ := bracketed_eq_some (fun _ _ _ => member_eq_some hitem) '\x7b' hread
        exact ⟨u, hc ▸ hu, .record hfields⟩
      split at h
      · obtain ⟨d, hnumber, heq⟩ := Option.map_eq_some_iff.1 h
        cases heq
        exact ⟨_, List.takeWhile_append_dropWhile.symm, .number (number?_eq_some_iff.1 hnumber)⟩
      · obtain ⟨w, hw, hstrip⟩ := List.exists_of_findSome?_eq_some h
        obtain ⟨rest', hrest, heq⟩ := Option.map_eq_some_iff.1 hstrip
        cases heq
        exact ⟨w.1, strip_eq_some_iff.1 hrest, .word hw⟩

/-- Reading accepts exactly the JSON texts, and gives the datum that the text stands for. -/
theorem read_eq_some_iff {t : Text} {v : Datum} : read t = some v ↔ IsJson t v := by
  constructor
  · intro h
    obtain ⟨⟨w, rest⟩, hvalue, h⟩ := Option.bind_eq_some_iff.1 h
    split at h
    · next hblanks =>
      cases h
      obtain ⟨u, hu, hspells⟩ := value_eq_some hvalue
      obtain ⟨b, hb, ht⟩ := exists_blanks t
      exact ⟨b, u, rest, hb, hspells, List.all_eq_true.1 hblanks, ht.trans (congrArg _ hu)⟩
    · cases h
  · rintro ⟨b, u, b', hb, hu, hb', rfl⟩
    have hstops : Stops (b' ++ []) := stops_append hb' fun c hc => by cases hc
    rw [List.append_nil] at hstops
    have hlength : u.length ≤ (b ++ (u ++ b')).length := by
      simp only [List.length_append]
      omega
    have hvalue := value_append hu hlength hstops
    rw [read, hu.begins.skip hb, hvalue, Option.bind_some, if_pos (List.all_eq_true.2 hb')]

end Coupling.Datum
