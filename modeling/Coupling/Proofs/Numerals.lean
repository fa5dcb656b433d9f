import Coupling.Number.Decimal
import Coupling.Proofs.JsonScalars
import Coupling.Proofs.Rounding

/-!
# Numerals

Counts and numbers of the floating-point format are written as JSON has them: digits without a zero in front, and behind
them, for numbers of the format, a fraction, an exponent or both. The digits of a number of the format are those of a
positive integer, since no number of the format but zero is rounded to zero, so there is a first digit that is not zero.
-/

namespace Coupling

open Datum

namespace Datum

/-! ### Digits -/

theorem ofString_append (s s' : String) : Text.ofString (s ++ s') = Text.ofString s ++ Text.ofString s' := by
  simp [Text.ofString]

theorem ofString_ofList (cs : List Char) : Text.ofString (String.ofList cs) = cs.map CodePoint.ofChar := by
  simp [Text.ofString]

theorem ofString_singleton (c : Char) : Text.ofString (String.singleton c) = [CodePoint.ofChar c] := by
  simp [Text.ofString]

theorem isDigit_ofChar {c : Char} (h : c.isDigit = true) : isDigit (CodePoint.ofChar c) = true := by
  rw [Char.isDigit_iff_toNat] at h
  exact Bool.and_eq_true_iff.2 ⟨decide_eq_true h.1, decide_eq_true h.2⟩

/-- Digits as code points. -/
theorem isDigits_map {cs : List Char} (hne : cs ≠ []) (h : ∀ c ∈ cs, c.isDigit = true) :
    isDigits (cs.map CodePoint.ofChar) = true := by
  simp only [isDigits, Bool.and_eq_true, Bool.not_eq_true', List.isEmpty_eq_false_iff, List.all_eq_true, List.mem_map]
  refine ⟨by simpa using hne, ?_⟩
  intro d hd
  obtain ⟨c, hc, rfl⟩ := hd
  exact isDigit_ofChar (h c hc)

theorem isWhole_map {c : Char} {cs : List Char} (hc : c ≠ '0') (h : ∀ d ∈ c :: cs, d.isDigit = true) :
    isWhole ((c :: cs).map CodePoint.ofChar) = true := by
  have hdigits := isDigits_map (List.cons_ne_nil c cs) h
  rw [List.map_cons] at hdigits ⊢
  simp [isWhole, hdigits, hc]

/-- The digits of a number do not begin with a zero. -/
theorem exists_toDigits {n : Nat} (hn : n ≠ 0) : ∃ c cs, Nat.toDigits 10 n = c :: cs ∧ c ≠ '0' := by
  induction n using Nat.strongRecOn with
  | ind n ih =>
    by_cases hlt : n < 10
    · have hchar : ∀ m < 10, m ≠ 0 → m.digitChar ≠ '0' := by decide
      exact ⟨n.digitChar, [], Nat.toDigits_of_lt_base hlt, hchar n hlt hn⟩
    · obtain ⟨c, cs, hcs, hc⟩ := ih (n / 10) (by omega) (by omega)
      refine ⟨c, cs ++ [(n % 10).digitChar], ?_, hc⟩
      rw [Nat.toDigits_of_base_le (by decide) (by omega), hcs, List.cons_append]

theorem isDigit_toDigits {n : Nat} {c : Char} (h : c ∈ Nat.toDigits 10 n) : c.isDigit = true :=
  Nat.isDigit_of_mem_toDigits (by decide) (by decide) h

theorem natural_map (cs : List Char) : natural (cs.map CodePoint.ofChar) = Nat.ofDigitChars 10 cs 0 := by
  rw [natural, List.foldl_map, Nat.ofDigitChars_eq_foldl]
  rfl

/-- A count is written as a number. -/
theorem isNumber_ofNat (n : Nat) : IsNumber (Text.ofNat n) (.integer n) := by
  have htext : Text.ofNat n = (Nat.toDigits 10 n).map CodePoint.ofChar := by
    rw [Text.ofNat, Nat.toString_eq_ofList_toDigits, ofString_ofList]
  have hwhole : isWhole (Text.ofNat n) = true := by
    rw [htext]
    by_cases hn : n = 0
    · rw [hn]
      decide
    · obtain ⟨c, cs, hcs, hc⟩ := exists_toDigits hn
      rw [hcs]
      apply isWhole_map hc
      intro d hd
      rw [← hcs] at hd
      exact isDigit_toDigits hd
  have hnumber := IsNumber.mk (.inl rfl) hwhole (show isFraction [] = true from rfl) (show isExponent [] = true from rfl)
  have hvalue : natural (Text.ofNat n) = n := by rw [htext, natural_map, Nat.ofDigitChars_ten_toDigits]
  simpa [ofParts, hvalue] using hnumber

/-- A number with something behind its whole part stands for itself. -/
theorem isNumber_decimal {t sign whole fraction exponent : Text} (ht : t = sign ++ (whole ++ (fraction ++ exponent)))
    (hs : sign = [] ∨ sign = [('-' : CodePoint)]) (hw : isWhole whole = true) (hf : isFraction fraction = true)
    (he : isExponent exponent = true) (hne : fraction ++ exponent ≠ []) : IsNumber t (.decimal t) := by
  have hnumber := IsNumber.mk hs hw hf he
  rw [ofParts, if_pos hne] at hnumber
  rwa [ht]

end Datum

namespace Decimal

/-! ### The first digit -/

theorem pow10_eq_zpow (e : Int) : pow10 e = (10 : Rat) ^ e := by
  unfold pow10
  split
  · next h =>
    obtain ⟨n, rfl⟩ := Int.eq_ofNat_of_zero_le h
    simp [zpow_natCast]
  · next h =>
    obtain ⟨n, hn⟩ := Int.eq_ofNat_of_zero_le (show 0 ≤ -e by omega)
    obtain rfl : e = -(n : Int) := by omega
    simp

theorem pow10_pos (e : Int) : 0 < pow10 e := by
  rw [pow10_eq_zpow]
  exact zpow_pos (by norm_num) e

/-- A positive number is not below the power of ten that is told by the digits of its numerator and its denominator. -/
theorem pow10_guess {x : Rat} (hx : 0 < x) :
    pow10 (((Nat.toDigits 10 x.num.natAbs).length : Int) - (Nat.toDigits 10 x.den).length - 1) ≤ x := by
  have hnum : 0 < x.num := Rat.num_pos.2 hx
  have hden : (0 : Rat) < x.den := Nat.cast_pos.2 x.den_pos
  have heq : x = x.num.natAbs / x.den := by
    rw [eq_div_iff hden.ne', Rat.mul_den_eq_num, ← Int.cast_natCast, Int.natAbs_of_nonneg hnum.le]
  have hn : 10 ^ ((Nat.toDigits 10 x.num.natAbs).length - 1) ≤ x.num.natAbs := by
    by_contra hlt
    rw [not_le] at hlt
    by_cases hone : (Nat.toDigits 10 x.num.natAbs).length = 1
    · rw [hone, Nat.sub_self, pow_zero] at hlt
      omega
    · have hpos : 0 < (Nat.toDigits 10 x.num.natAbs).length := Nat.length_toDigits_pos
      have hle := (Nat.length_toDigits_le_iff (by decide) (by omega)).2 hlt
      omega
  have hd : x.den < 10 ^ (Nat.toDigits 10 x.den).length :=
    (Nat.length_toDigits_le_iff (by decide) Nat.length_toDigits_pos).1 le_rfl
  have ha : 0 < (Nat.toDigits 10 x.num.natAbs).length := Nat.length_toDigits_pos
  generalize (Nat.toDigits 10 x.num.natAbs).length = a at hn ha ⊢
  generalize (Nat.toDigits 10 x.den).length = b at hd ⊢
  obtain ⟨a, rfl⟩ : ∃ m, a = m + 1 := ⟨a - 1, by omega⟩
  rw [heq, le_div_iff₀ hden]
  calc pow10 ((a + 1 : Nat) - b - 1) * x.den ≤ pow10 ((a + 1 : Nat) - b - 1) * (10 ^ b : Nat) :=
        mul_le_mul_of_nonneg_left (by exact_mod_cast hd.le) (pow10_pos _).le
    _ = ((10 ^ a : Nat) : Rat) := by
        rw [pow10_eq_zpow, Nat.cast_pow, Nat.cast_pow, Nat.cast_ofNat, ← zpow_natCast, ← zpow_natCast,
          ← zpow_add₀ (by norm_num)]
        congr 1
        push_cast
        ring
    _ ≤ x.num.natAbs := by exact_mod_cast hn

theorem pow10_exponent {x : Rat} (hx : 0 < x) : pow10 (exponent x) ≤ x := by
  have hguess := pow10_guess hx
  unfold exponent
  dsimp only
  split
  · assumption
  · exact hguess

/-- A number that is read back as a positive one is not zero. -/
theorem onGrid?_pos {x : Rat} (hx : 0 < x) {n : Nat} {r : Nat × Int} (h : onGrid? Binary64.round x n = some r) :
    0 < r.1 := by
  unfold onGrid? at h
  extract_lets step below reads distance best at h
  have hbelow : 0 ≤ below := Rat.le_floor_iff.2 (by simpa using (div_pos hx (pow10_pos step)).le)
  have hzero : reads 0 = false := by
    apply decide_eq_false
    rw [Int.cast_zero, zero_mul, Binary64.round_zero]
    exact hx.ne
  have hreads (k : Int) (hk : reads k = true) (hle : 0 ≤ k) : 0 < k.toNat := by
    by_cases hk0 : k = 0
    · rw [hk0, hzero] at hk
      cases hk
    · omega
  obtain ⟨k, hbest, rfl⟩ := Option.map_eq_some_iff.1 h
  unfold best at hbest
  split at hbest
  · next hlow =>
    split at hbest
    · next hhigh =>
      cases hbest
      exact hreads _ (Bool.and_eq_true_iff.1 hhigh).1 (by omega)
    · cases hbest
      exact hreads below hlow hbelow
  · split at hbest
    · next hhigh =>
      cases hbest
      exact hreads _ hhigh (by omega)
    · cases hbest

/-- A positive number has a digit that is not zero. -/
theorem shortest_pos {x : Rat} (hx : 0 < x) : 0 < (shortest x).1 := by
  unfold shortest
  dsimp only
  cases hfound : ((List.range 17).map fun n => n + 1).findSome? (onGrid? Binary64.round x) with
  | some r =>
    obtain ⟨n, -, hn⟩ := List.exists_of_findSome?_eq_some hfound
    exact onGrid?_pos hx hn
  | none =>
    have hle : pow10 (exponent x - 16) ≤ x := by
      refine le_trans ?_ (pow10_exponent hx)
      rw [pow10_eq_zpow, pow10_eq_zpow]
      exact zpow_le_zpow_right₀ (by norm_num) (by omega)
    have hfloor : 1 ≤ (x / pow10 (exponent x - 16)).floor := by
      rw [Rat.le_floor_iff, le_div_iff₀ (pow10_pos _)]
      simpa using hle
    simp only [Option.getD_none]
    omega

/-! ### Texts -/

theorem trimZeros_cons {d : Char} (hd : d ≠ '0') (ds : List Char) : trimZeros (d :: ds) = d :: trimZeros ds := by
  unfold trimZeros
  rw [List.reverse_cons, List.dropWhile_append]
  split
  · next hempty =>
    rw [List.isEmpty_iff] at hempty
    simp [hempty, hd]
  · simp

theorem trimZeros_subset (ds : List Char) : trimZeros ds ⊆ ds := by
  intro c hc
  rw [trimZeros, List.mem_reverse] at hc
  exact List.mem_reverse.1 (List.dropWhile_subset _ hc)

/-- A numeral with a point in it. -/
theorem exists_point {d : Char} {ds : List Char} (hd : d ≠ '0') (hds : ∀ c ∈ d :: ds, c.isDigit = true) (n : Int) :
    ∃ whole fraction, Text.ofString (point (d :: ds) n) = whole ++ fraction ∧ isWhole whole = true ∧
      isFraction fraction = true ∧ fraction ≠ [] := by
  have hzeros (m : Nat) : ∀ c ∈ List.replicate m '0', c.isDigit = true := by
    intro c hc
    rw [List.eq_of_mem_replicate hc]
    rfl
  unfold point
  split
  · have hdigits : isDigits ((List.replicate (-n).toNat '0' ++ d :: ds).map CodePoint.ofChar) = true := by
      apply isDigits_map (by simp)
      intro c hc
      rcases List.mem_append.1 hc with hc | hc
      · exact hzeros _ c hc
      · exact hds c hc
    refine ⟨['0'], '.' :: (List.replicate (-n).toNat '0' ++ d :: ds).map CodePoint.ofChar, ?_, rfl, ?_, List.cons_ne_nil _ _⟩
    · rw [ofString_append, ofString_ofList (_ ++ _)]
      rfl
    · simp only [isFraction, decide_true, Bool.true_and]
      exact hdigits
  · next hn =>
    obtain ⟨m, hm⟩ : ∃ m : Nat, n.toNat = m + 1 := ⟨n.toNat - 1, by omega⟩
    dsimp only
    rw [hm, List.take_succ_cons, List.drop_succ_cons]
    refine ⟨(d :: (ds.take m ++ List.replicate (m + 1 - (d :: ds).length) '0')).map CodePoint.ofChar,
      '.' :: (if ds.drop m = [] then ['0'] else (ds.drop m).map CodePoint.ofChar), ?_, ?_, ?_, List.cons_ne_nil _ _⟩
    · rw [ofString_append, ofString_append, ofString_ofList, List.append_assoc, List.cons_append]
      congr 1
      split
      · rfl
      · rw [ofString_ofList (ds.drop m)]
        rfl
    · apply isWhole_map hd
      intro c hc
      rw [← List.cons_append] at hc
      rcases List.mem_append.1 hc with hc | hc
      · exact hds c (List.cons_subset_cons d (List.take_subset m ds) hc)
      · exact hzeros _ c hc
    · simp only [isFraction, decide_true, Bool.true_and]
      split
      · rfl
      · next hne =>
        apply isDigits_map hne
        intro c hc
        exact hds c (List.mem_cons_of_mem d (List.mem_of_mem_drop hc))

/-- An exponent is written with a sign and with two digits at least. -/
theorem isExponent_of_sign {sign : String} (hsign : sign = "-" ∨ sign = "+") (n : Nat) :
    isExponent (Text.ofString ("e" ++ sign ++ (if (toString n).length < 2 then "0" ++ toString n else toString n))) = true := by
  have hsize : isDigits (Text.ofString (toString n)) = true := by
    rw [Nat.toString_eq_ofList_toDigits, ofString_ofList]
    exact isDigits_map Nat.toDigits_ne_nil fun c hc => isDigit_toDigits hc
  have hdigits : isDigits (Text.ofString (if (toString n).length < 2 then "0" ++ toString n else toString n)) = true := by
    split
    · rw [ofString_append]
      simp only [isDigits, List.all_append, Bool.and_eq_true]
      exact ⟨rfl, rfl, all_of_isDigits hsize⟩
    · exact hsize
  rw [ofString_append, ofString_append]
  generalize Text.ofString (if (toString n).length < 2 then _ else _) = digits at hdigits ⊢
  rcases hsign with rfl | rfl
  · exact hdigits
  · exact hdigits

/-- A numeral with an exponent. -/
theorem exists_scientific {d : Char} {ds : List Char} (hd : d ≠ '0') (hds : ∀ c ∈ d :: ds, c.isDigit = true) (e : Int) :
    ∃ whole fraction exponent, Text.ofString (scientific (d :: ds) e) = whole ++ (fraction ++ exponent) ∧
      isWhole whole = true ∧ isFraction fraction = true ∧ isExponent exponent = true ∧ exponent ≠ [] := by
  have hsign : (if e < 0 then "-" else "+") = "-" ∨ (if e < 0 then "-" else "+") = "+" := by split <;> simp
  have hexponent := isExponent_of_sign hsign e.natAbs
  have hwhole : isWhole ([d].map CodePoint.ofChar) = true :=
    isWhole_map hd fun c hc => hds c (List.cons_subset_cons d (List.nil_subset ds) hc)
  refine ⟨[d].map CodePoint.ofChar, if ds = [] then [] else '.' :: ds.map CodePoint.ofChar, _, ?_, hwhole, ?_, hexponent, ?_⟩
  · cases ds with
    | nil =>
      simp only [scientific, String.append_assoc, if_true]
      rw [ofString_append, ofString_singleton]
      rfl
    | cons c ds =>
      simp only [scientific, String.append_assoc]
      rw [ofString_append, ofString_append, ofString_append, ofString_singleton, ofString_ofList (c :: ds),
        if_neg (List.cons_ne_nil c ds)]
      rfl
  · split
    · rfl
    · next hne =>
      simp only [isFraction, decide_true, Bool.true_and]
      exact isDigits_map hne fun c hc => hds c (List.mem_cons_of_mem d hc)
  · rw [ofString_append, ofString_append]
    exact List.cons_ne_nil _ _

/-- A number of the format is written as a number that keeps its text. -/
theorem isNumber_text (x : Rat) : IsNumber (Text.ofString (text x)) (.decimal (Text.ofString (text x))) := by
  by_cases hx : x = 0
  · have htext : text x = "0.0" := if_pos hx
    rw [htext]
    have hparts : Text.ofString "0.0" = [] ++ ([('0' : CodePoint)] ++ ([('.' : CodePoint), '0'] ++ [])) := rfl
    exact isNumber_decimal hparts (.inl rfl) rfl rfl rfl (List.cons_ne_nil _ _)
  · have hpos : 0 < (shortest x.abs).1 := shortest_pos (by rw [Binary64.abs_eq]; exact abs_pos.2 hx)
    obtain ⟨d, ds, hdigits, hd⟩ := exists_toDigits hpos.ne'
    have hds : ∀ c ∈ d :: trimZeros ds, c.isDigit = true := by
      intro c hc
      have hmem := List.cons_subset_cons d (trimZeros_subset ds) hc
      rw [← hdigits] at hmem
      exact isDigit_toDigits hmem
    have hsign : Text.ofString (if x < 0 then "-" else "") = [] ∨
        Text.ofString (if x < 0 then "-" else "") = [('-' : CodePoint)] := by
      split
      · exact .inr rfl
      · exact .inl rfl
    unfold text
    rw [if_neg hx]
    dsimp only
    rw [hdigits, trimZeros_cons hd, ofString_append]
    generalize Text.ofString (if x < 0 then "-" else "") = sign at hsign ⊢
    split
    · obtain ⟨whole, fraction, exponent, htext, hw, hf, he, hne⟩ :=
        exists_scientific hd hds ((shortest x.abs).2 + (d :: ds).length - 1)
      rw [htext]
      exact isNumber_decimal rfl hsign hw hf he (by simp [hne])
    · obtain ⟨whole, fraction, htext, hw, hf, hne⟩ :=
        exists_point hd hds ((shortest x.abs).2 + (d :: ds).length - 1 + 1)
      rw [htext]
      exact isNumber_decimal (by rw [List.append_nil]) hsign hw hf (show isExponent [] = true from rfl) (by simp [hne])

end Decimal

end Coupling
