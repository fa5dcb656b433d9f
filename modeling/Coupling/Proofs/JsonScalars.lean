import Coupling.Proofs.JsonGrammar
import Mathlib.Data.List.Infix
import Mathlib.Data.List.TakeWhile

/-!
# Reading strings and numbers

Each reader takes what its part of the grammar allows and nothing else: a string ends at the first quote that is not
escaped, and a number is the whole run of code points that may stand in one.
-/

namespace Coupling.Datum

/-- What stands behind blanks. -/
def skip (t : Text) : Text := t.dropWhile isBlank

/-- What stands behind a given front. -/
def strip (front t : Text) : Option Text := if front <+: t then some (t.drop front.length) else none

/-- Reads one code point in a string. -/
def piece? (t : Text) : Option (CodePoint × Text) :=
  match t with
  | [] => none
  | c :: t =>
    if c = '\\' then
      match t with
      | [] => none
      | e :: t =>
        if e = 'u' then if (t.take 4).length = 4 then (unit? (t.take 4)).map (·, t.drop 4) else none
        else (shorts.lookup e).map (·, t)
    else if c ≠ '"' ∧ 0x20 ≤ c.val then some (c, t)
    else none

/-- Reads a string to its closing quote. -/
def string : Nat → Text → Option (Text × Text)
  | 0, _ => none
  | fuel + 1, t =>
    if t.head? = some ('"' : CodePoint) then some ([], t.tail)
    else (piece? t).bind fun r => (string fuel r.2).map fun s => (r.1 :: s.1, s.2)

/-- The sign at the front of a text. -/
def signOf (t : Text) : Text := if t.head? = some ('-' : CodePoint) then ['-'] else []

/-- The fraction at the front of a text. -/
def fractionOf (t : Text) : Text := if t.head? = some ('.' : CodePoint) then '.' :: t.tail.takeWhile isDigit else []

/-- Reads a number. -/
def number? (t : Text) : Option Datum :=
  let sign := signOf t
  let unsigned := t.drop sign.length
  let whole := unsigned.takeWhile isDigit
  let more := unsigned.drop whole.length
  let fraction := fractionOf more
  let exponent := more.drop fraction.length
  if isWhole whole = true ∧ isFraction fraction = true ∧ isExponent exponent = true then some (ofParts sign whole more)
  else none

/-- May stand in a number. -/
def inNumber (c : CodePoint) : Bool := isDigit c || c = '+' || c = '-' || c = '.' || c = 'e' || c = 'E'

/-! ### Blanks and fronts -/

/-- Only blanks are skipped. -/
theorem exists_blanks (t : Text) : ∃ b, Blanks b ∧ t = b ++ skip t :=
  ⟨t.takeWhile isBlank, fun _ hc => List.mem_takeWhile_imp hc, List.takeWhile_append_dropWhile.symm⟩

theorem skip_append {b t : Text} (hb : Blanks b) (ht : ∀ c ∈ t.head?, isBlank c = false) : skip (b ++ t) = t := by
  unfold skip
  rw [List.dropWhile_append_of_pos hb]
  cases t with
  | nil => rfl
  | cons c t => exact List.dropWhile_cons_of_neg (by simp [ht c rfl])

theorem strip_append (front t : Text) : strip front (front ++ t) = some t := by
  rw [strip, if_pos (List.prefix_append front t), List.drop_left]

theorem strip_eq_some_iff {front t rest : Text} : strip front t = some rest ↔ t = front ++ rest := by
  constructor
  · intro h
    unfold strip at h
    split at h
    · next hfront =>
      obtain ⟨more, rfl⟩ := hfront
      rw [List.drop_left] at h
      rw [Option.some.inj h]
    · cases h
  · rintro rfl
    exact strip_append front rest

/-! ### Strings -/

theorem piece?_eq_some_iff {t rest : Text} {c : CodePoint} :
    piece? t = some (c, rest) ↔ ∃ piece, t = piece ++ rest ∧ Piece piece c := by
  constructor
  · intro h
    unfold piece? at h
    split at h
    · cases h
    · next d t =>
      split at h
      · next hback =>
        subst hback
        split at h
        · cases h
        · next e t =>
          split at h
          · next he =>
            subst he
            split at h
            · next hlength =>
              obtain ⟨x, hx, heq⟩ := Option.map_eq_some_iff.1 h
              cases heq
              refine ⟨'\\' :: 'u' :: t.take 4, ?_, .numbered hlength hx⟩
              simp
            · cases h
          · obtain ⟨x, hx, heq⟩ := Option.map_eq_some_iff.1 h
            cases heq
            exact ⟨['\\', e], rfl, .short hx⟩
      · next hback =>
        split at h
        · next hplain =>
          cases h
          exact ⟨[c], rfl, .plain hplain.1 hback hplain.2⟩
        · cases h
  · rintro ⟨piece, rfl, hpiece⟩
    cases hpiece with
    | plain hquote hback hspace => simp [piece?, hquote, hback, hspace]
    | @short e _ he =>
      have hu : e ≠ 'u' := by
        rintro rfl
        have hnone : shorts.lookup ('u' : CodePoint) = none := by decide
        rw [hnone] at he
        cases he
      simp [piece?, hu, he]
    | @numbered digits _ hlength hunit =>
      have htake : (digits ++ rest).take 4 = digits := List.take_left' hlength
      have hdrop : (digits ++ rest).drop 4 = rest := List.drop_left' hlength
      simp [piece?, htake, hdrop, hlength, hunit]

/-- A piece of a string does not begin with a quote. -/
theorem Piece.head {piece : Text} {c : CodePoint} (h : Piece piece c) (t : Text) :
    (piece ++ t).head? ≠ some ('"' : CodePoint) := by
  cases h with
  | plain hquote => simpa using hquote
  | short => simp
  | numbered => simp

/-- Reading to the closing quote takes exactly the pieces before it. -/
theorem string_eq_some {fuel : Nat} {t points rest : Text} (h : string fuel t = some (points, rest)) :
    ∃ body, t = body ++ ('"' : CodePoint) :: rest ∧ Pieces body points := by
  induction fuel generalizing t points with
  | zero => cases h
  | succ fuel ih =>
    rw [string] at h
    split at h
    · next hquote =>
      cases h
      obtain ⟨t', rfl⟩ := List.head?_eq_some_iff.1 hquote
      exact ⟨[], rfl, .nil⟩
    · obtain ⟨⟨c, t'⟩, hfirst, h⟩ := Option.bind_eq_some_iff.1 h
      obtain ⟨⟨points', rest'⟩, hstring, heq⟩ := Option.map_eq_some_iff.1 h
      cases heq
      obtain ⟨piece, rfl, hpiece⟩ := piece?_eq_some_iff.1 hfirst
      obtain ⟨body, rfl, hbody⟩ := ih hstring
      exact ⟨piece ++ body, by simp, .cons hpiece hbody⟩

theorem string_append {fuel : Nat} {body points : Text} (h : Pieces body points) (hfuel : body.length < fuel) (rest : Text) :
    string fuel (body ++ ('"' : CodePoint) :: rest) = some (points, rest) := by
  induction h generalizing fuel with
  | nil =>
    obtain ⟨fuel, rfl⟩ := Nat.exists_eq_add_one_of_ne_zero (Nat.ne_of_gt hfuel)
    rfl
  | @cons piece body points c hpiece _ ih =>
    obtain ⟨fuel, rfl⟩ := Nat.exists_eq_add_one_of_ne_zero (Nat.ne_of_gt (Nat.zero_lt_of_lt hfuel))
    have hlength : 0 < piece.length := by cases hpiece <;> simp
    have hread : piece? (piece ++ (body ++ ('"' : CodePoint) :: rest)) = some (c, body ++ ('"' : CodePoint) :: rest) :=
      piece?_eq_some_iff.2 ⟨piece, rfl, hpiece⟩
    rw [List.length_append] at hfuel
    rw [string, List.append_assoc, if_neg (hpiece.head _), hread, Option.bind_some, ih (by omega)]
    rfl

/-! ### Numbers -/

theorem signOf_isPrefix (t : Text) : signOf t <+: t := by
  unfold signOf
  split
  · next h =>
    obtain ⟨t', rfl⟩ := List.head?_eq_some_iff.1 h
    exact List.prefix_append _ _
  · exact List.nil_prefix

theorem fractionOf_isPrefix (t : Text) : fractionOf t <+: t := by
  unfold fractionOf
  split
  · next h =>
    obtain ⟨t', rfl⟩ := List.head?_eq_some_iff.1 h
    rw [List.cons_prefix_cons]
    exact ⟨rfl, List.takeWhile_prefix _⟩
  · exact List.nil_prefix

/-- A run of code points ends where one stands that does not belong to it. -/
theorem takeWhile_append {p : CodePoint → Bool} {t rest : Text} (ht : t.all p = true) (hrest : ∀ c ∈ rest.head?, p c = false) :
    (t ++ rest).takeWhile p = t := by
  rw [List.takeWhile_append_of_pos (List.all_eq_true.1 ht)]
  cases rest with
  | nil => simp
  | cons c rest => simp [hrest c rfl]

theorem dropWhile_append {p : CodePoint → Bool} {t rest : Text} (ht : t.all p = true) (hrest : ∀ c ∈ rest.head?, p c = false) :
    (t ++ rest).dropWhile p = rest := by
  rw [List.dropWhile_append_of_pos (List.all_eq_true.1 ht)]
  cases rest with
  | nil => rfl
  | cons c rest => simp [hrest c rfl]

theorem all_of_isDigits {t : Text} (h : isDigits t = true) : t.all isDigit = true := (Bool.and_eq_true_iff.1 h).2

theorem isDigits_of_isWhole {t : Text} (h : isWhole t = true) : isDigits t = true := (Bool.and_eq_true_iff.1 h).1

theorem exists_cons_of_isWhole {t : Text} (h : isWhole t = true) : ∃ c t', t = c :: t' ∧ isDigit c = true := by
  have hdigits := isDigits_of_isWhole h
  cases t with
  | nil => cases hdigits
  | cons c t => exact ⟨c, t, rfl, List.all_eq_true.1 (all_of_isDigits hdigits) c List.mem_cons_self⟩

/-- An exponent begins with its mark. -/
theorem head_exponent {e : Text} (h : isExponent e = true) {c : CodePoint} (hc : c ∈ e.head?) : c = 'e' ∨ c = 'E' := by
  cases e with
  | nil => cases hc
  | cons d e =>
    cases hc
    simp only [isExponent, Bool.and_eq_true, Bool.or_eq_true, decide_eq_true_eq] at h
    exact h.1

theorem fractionOf_append {f e : Text} (hf : isFraction f = true) (he : isExponent e = true) : fractionOf (f ++ e) = f := by
  cases f with
  | nil =>
    refine if_neg fun h => ?_
    rcases head_exponent he h with h | h <;> simp at h
  | cons c f =>
    simp only [isFraction, Bool.and_eq_true, decide_eq_true_eq] at hf
    obtain ⟨rfl, hf⟩ := hf
    have hrest : ∀ c ∈ e.head?, isDigit c = false := by
      intro c hc
      rcases head_exponent he hc with rfl | rfl <;> rfl
    have hrun := takeWhile_append (all_of_isDigits hf) hrest
    simp [fractionOf, hrun]

/-- What follows the whole part does not begin with a digit. -/
theorem head_more {f e : Text} (hf : isFraction f = true) (he : isExponent e = true) {c : CodePoint}
    (hc : c ∈ (f ++ e).head?) : isDigit c = false := by
  cases f with
  | nil => rcases head_exponent he hc with rfl | rfl <;> rfl
  | cons d f =>
    cases hc
    simp only [isFraction, Bool.and_eq_true, decide_eq_true_eq] at hf
    rw [hf.1]
    rfl

theorem signOf_append {sign whole : Text} (hs : sign = [] ∨ sign = [('-' : CodePoint)]) (hw : isWhole whole = true)
    (t : Text) : signOf (sign ++ (whole ++ t)) = sign := by
  obtain ⟨c, whole, rfl, hc⟩ := exists_cons_of_isWhole hw
  rcases hs with rfl | rfl
  · refine if_neg fun h => ?_
    cases h
    cases hc
  · rfl

/-- Reading accepts exactly the numbers. -/
theorem number?_eq_some_iff {t : Text} {v : Datum} : number? t = some v ↔ IsNumber t v := by
  constructor
  · intro h
    unfold number? at h
    extract_lets sign unsigned whole more fraction exponent at h
    split at h
    · next hparts =>
      have hsign : sign = [] ∨ sign = [('-' : CodePoint)] := by
        unfold sign signOf
        split <;> simp
      have ht : sign ++ unsigned = t := List.prefix_iff_eq_append.1 (signOf_isPrefix t)
      have hunsigned : whole ++ more = unsigned := by
        apply List.prefix_iff_eq_append.1
        exact List.takeWhile_prefix isDigit
      have hmore : fraction ++ exponent = more := List.prefix_iff_eq_append.1 (fractionOf_isPrefix more)
      have hnumber := IsNumber.mk hsign hparts.1 hparts.2.1 hparts.2.2
      rw [hmore, hunsigned, ht, Option.some.inj h] at hnumber
      exact hnumber
    · cases h
  · rintro ⟨hs, hw, hf, he⟩
    have hrun := takeWhile_append (all_of_isDigits (isDigits_of_isWhole hw)) fun c hc => head_more hf he hc
    simp only [number?, signOf_append hs hw, List.drop_left, hrun, fractionOf_append hf he, hw, hf, he, and_self, if_true]

theorem inNumber_of_isDigits {t : Text} (h : isDigits t = true) : t.all inNumber = true := by
  rw [List.all_eq_true]
  intro c hc
  have hdigit := List.all_eq_true.1 (all_of_isDigits h) c hc
  simp [inNumber, hdigit]

theorem inNumber_of_isFraction {t : Text} (h : isFraction t = true) : t.all inNumber = true := by
  cases t with
  | nil => rfl
  | cons c t =>
    simp only [isFraction, Bool.and_eq_true, decide_eq_true_eq] at h
    rw [List.all_cons, h.1, inNumber_of_isDigits h.2]
    rfl

theorem inNumber_of_isExponent {t : Text} (h : isExponent t = true) : t.all inNumber = true := by
  cases t with
  | nil => rfl
  | cons c t =>
    simp only [isExponent, Bool.and_eq_true, Bool.or_eq_true, decide_eq_true_eq] at h
    have hmark : inNumber c = true := by rcases h.1 with rfl | rfl <;> rfl
    have hmore : t.all inNumber = true := by
      split at h
      · next hsign =>
        cases t with
        | nil => rfl
        | cons d t =>
          have hd : inNumber d = true := by rcases hsign with hsign | hsign <;> cases hsign <;> rfl
          have hdigits : t.all inNumber = true := inNumber_of_isDigits h.2
          rw [List.all_cons, hd, hdigits]
          rfl
      · exact inNumber_of_isDigits h.2
    rw [List.all_cons, hmark, hmore]
    rfl

theorem IsNumber.inNumber {t : Text} {v : Datum} (h : IsNumber t v) : t.all inNumber = true := by
  cases h with
  | @mk sign whole fraction exponent hs hw hf he =>
    have hsign : sign.all Datum.inNumber = true := by rcases hs with rfl | rfl <;> rfl
    rw [List.all_append, List.all_append, List.all_append, hsign, inNumber_of_isDigits (isDigits_of_isWhole hw),
      inNumber_of_isFraction hf, inNumber_of_isExponent he]
    rfl

theorem IsNumber.ne_nil {t : Text} {v : Datum} (h : IsNumber t v) : t ≠ [] := by
  cases h with
  | mk hs hw hf he =>
    obtain ⟨c, whole, rfl, -⟩ := exists_cons_of_isWhole hw
    simp

end Coupling.Datum
