import Coupling.Number.Binary64
import Mathlib.Algebra.Order.Field.Power
import Mathlib.Data.Rat.Floor
import Mathlib.Tactic.Linarith

/-!
# Rounding to the 64-bit format

Around every number the format is a grid of multiples of a power of two, and rounding goes to the nearest point of the grid.
On one grid this is monotone and leaves the points of the grid as they are. Where a number lies in a coarser grid than
another one, a power of two that belongs to both grids lies between them, so rounding is monotone altogether, and it leaves
all numbers of the format as they are. Among the numbers of the format none is nearer than the one that rounding gives.
-/

namespace Coupling.Binary64

variable {x y : Rat} {q e : Int}

/-! ### Powers of two -/

theorem pow2_eq_zpow (e : Int) : pow2 e = (2 : Rat) ^ e := by
  unfold pow2
  split
  · next h =>
    obtain ⟨n, rfl⟩ := Int.eq_ofNat_of_zero_le h
    simp [zpow_natCast]
  · next h =>
    obtain ⟨n, hn⟩ := Int.eq_ofNat_of_zero_le (show 0 ≤ -e by omega)
    obtain rfl : e = -(n : Int) := by omega
    simp

theorem pow2_pos (e : Int) : 0 < pow2 e := by
  rw [pow2_eq_zpow]
  exact zpow_pos two_pos e

theorem pow2_add (e e' : Int) : pow2 (e + e') = pow2 e * pow2 e' := by
  rw [pow2_eq_zpow, pow2_eq_zpow, pow2_eq_zpow, zpow_add₀ two_ne_zero]

theorem pow2_natCast (n : Nat) : pow2 n = ((2 ^ n : Nat) : Rat) := by
  rw [pow2_eq_zpow, zpow_natCast, Nat.cast_pow, Nat.cast_ofNat]

theorem pow2_lt_pow2_iff {e e' : Int} : pow2 e < pow2 e' ↔ e < e' := by
  rw [pow2_eq_zpow, pow2_eq_zpow, zpow_lt_zpow_iff_right₀ one_lt_two]

theorem pow2_le_pow2_iff {e e' : Int} : pow2 e ≤ pow2 e' ↔ e ≤ e' := by
  rw [pow2_eq_zpow, pow2_eq_zpow, zpow_le_zpow_iff_right₀ one_lt_two]

/-- A point of a grid is one of every finer grid. -/
theorem exists_mul_pow2_eq (n : Int) (h : q ≤ e) : ∃ n' : Int, n * pow2 e = n' * pow2 q := by
  obtain ⟨k, hk⟩ := Int.eq_ofNat_of_zero_le (Int.sub_nonneg.2 h)
  obtain rfl : e = k + q := by omega
  refine ⟨n * (2 ^ k : Nat), ?_⟩
  rw [pow2_add, pow2_natCast, ← mul_assoc, Int.cast_mul, Int.cast_natCast]

/-! ### Nearest integers -/

/-- The integers on both sides of a number, and the part of it that tells which is nearer. -/
theorem nearestEven_add (n : Int) {part : Rat} (hlo : 0 ≤ part) (hhi : part < 1) : nearestEven (n + part) =
    if part < 1 / 2 then n else if 1 / 2 < part then n + 1 else if n % 2 = 0 then n else n + 1 := by
  have hfloor : (n + part : Rat).floor = n := by
    show ⌊(n + part : Rat)⌋ = n
    rw [Int.floor_eq_iff]
    constructor <;> linarith
  unfold nearestEven
  dsimp only
  rw [hfloor, add_sub_cancel_left]

theorem exists_eq_add (x : Rat) : ∃ (n : Int) (part : Rat), x = n + part ∧ 0 ≤ part ∧ part < 1 :=
  ⟨⌊x⌋, Int.fract x, (Int.floor_add_fract x).symm, Int.fract_nonneg x, Int.fract_lt_one x⟩

theorem nearestEven_intCast (n : Int) : nearestEven n = n := by
  have h := nearestEven_add n le_rfl one_pos
  rwa [add_zero, if_pos one_half_pos] at h

theorem nearestEven_mono (h : x ≤ y) : nearestEven x ≤ nearestEven y := by
  obtain ⟨n, part, rfl, hlo, hhi⟩ := exists_eq_add x
  obtain ⟨n', part', rfl, hlo', hhi'⟩ := exists_eq_add y
  rw [nearestEven_add n hlo hhi, nearestEven_add n' hlo' hhi']
  have hle : n ≤ n' := by
    have : (n : Rat) < (n' + 1 : Int) := by
      push_cast
      linarith
    exact Int.lt_add_one_iff.1 (Int.cast_lt.1 this)
  obtain hlt | rfl := hle.lt_or_eq
  · grind
  · -- Between the same two integers, the larger number has the larger part.
    have hpart : part ≤ part' := le_of_add_le_add_left h
    grind

theorem nearestEven_neg (x : Rat) : nearestEven (-x) = -nearestEven x := by
  obtain ⟨n, part, rfl, hlo, hhi⟩ := exists_eq_add x
  obtain hpos | rfl := hlo.lt_or_eq
  · have hneg : -(n + part) = ((-n - 1 : Int) : Rat) + (1 - part) := by
      push_cast
      ring
    rw [hneg, nearestEven_add _ (by linarith) (by linarith), nearestEven_add n hlo hhi]
    grind
  · rw [add_zero, ← Int.cast_neg, nearestEven_intCast, nearestEven_intCast]

/-! ### Exponents -/

/-- A positive number lies between powers of two that are told by its numerator and its denominator. -/
theorem pow2_guess (hx : 0 < x) : pow2 ((x.num.natAbs.log2 : Int) - x.den.log2 - 1) ≤ x ∧
    x < pow2 ((x.num.natAbs.log2 : Int) - x.den.log2 + 1) := by
  have hnum : 0 < x.num := Rat.num_pos.2 hx
  have hden : (0 : Rat) < x.den := Nat.cast_pos.2 x.den_pos
  have heq : x = x.num.natAbs / x.den := by
    rw [eq_div_iff hden.ne', Rat.mul_den_eq_num, ← Int.cast_natCast, Int.natAbs_of_nonneg hnum.le]
  have hn : pow2 x.num.natAbs.log2 ≤ x.num.natAbs ∧ x.num.natAbs < pow2 (x.num.natAbs.log2 + 1 : Nat) := by
    rw [pow2_natCast, pow2_natCast, Nat.cast_le, Nat.cast_lt]
    exact ⟨Nat.log2_self_le (by omega), Nat.lt_log2_self⟩
  have hd : pow2 x.den.log2 ≤ x.den ∧ x.den < pow2 (x.den.log2 + 1 : Nat) := by
    rw [pow2_natCast, pow2_natCast, Nat.cast_le, Nat.cast_lt]
    exact ⟨Nat.log2_self_le x.den_ne_zero, Nat.lt_log2_self⟩
  generalize x.num.natAbs.log2 = a at hn ⊢
  generalize x.den.log2 = b at hd ⊢
  constructor
  · rw [heq, le_div_iff₀ hden]
    calc pow2 (a - b - 1) * x.den ≤ pow2 (a - b - 1) * pow2 (b + 1 : Nat) :=
          mul_le_mul_of_nonneg_left hd.2.le (pow2_pos _).le
      _ = pow2 a := by
          rw [← pow2_add]
          congr 1
          push_cast
          ring
      _ ≤ x.num.natAbs := hn.1
  · rw [heq, div_lt_iff₀ hden]
    calc (x.num.natAbs : Rat) < pow2 (a + 1 : Nat) := hn.2
      _ = pow2 (a - b + 1) * pow2 b := by
          rw [← pow2_add]
          congr 1
          push_cast
          ring
      _ ≤ pow2 (a - b + 1) * x.den := mul_le_mul_of_nonneg_left hd.1 (pow2_pos _).le

theorem exponent_bounds (hx : 0 < x) : pow2 (exponent x) ≤ x ∧ x < pow2 (exponent x + 1) := by
  obtain ⟨hlo, hhi⟩ := pow2_guess hx
  unfold exponent
  dsimp only
  split
  · next h => exact ⟨h, hhi⟩
  · next h =>
    rw [sub_add_cancel]
    exact ⟨hlo, not_le.1 h⟩

theorem exponent_lt_iff (hx : 0 < x) : exponent x < e ↔ x < pow2 e := by
  obtain ⟨hlo, hhi⟩ := exponent_bounds hx
  constructor
  · intro h
    exact hhi.trans_le (pow2_le_pow2_iff.2 h)
  · intro h
    exact pow2_lt_pow2_iff.1 (hlo.trans_lt h)

/-! ### Grids -/

/-- The nearest multiple of a power of two. -/
def roundAt (q : Int) (x : Rat) : Rat := nearestEven (x / pow2 q) * pow2 q

theorem roundAt_mono (q : Int) (h : x ≤ y) : roundAt q x ≤ roundAt q y := by
  have hdiv : x / pow2 q ≤ y / pow2 q := div_le_div_of_nonneg_right h (pow2_pos q).le
  exact mul_le_mul_of_nonneg_right (Int.cast_le.2 (nearestEven_mono hdiv)) (pow2_pos q).le

theorem roundAt_neg (q : Int) (x : Rat) : roundAt q (-x) = -roundAt q x := by
  rw [roundAt, roundAt, neg_div, nearestEven_neg, Int.cast_neg, neg_mul]

/-- The points of the grid, and of coarser grids, stay as they are. -/
theorem roundAt_mul_pow2 (n : Int) (h : q ≤ e) : roundAt q (n * pow2 e) = n * pow2 e := by
  obtain ⟨n', hn'⟩ := exists_mul_pow2_eq n h
  rw [hn', roundAt, mul_div_cancel_right₀ _ (pow2_pos q).ne', nearestEven_intCast]

theorem roundAt_pow2 (h : q ≤ e) : roundAt q (pow2 e) = pow2 e := by
  have h1 := roundAt_mul_pow2 1 h
  rwa [Int.cast_one, one_mul] at h1

theorem roundAt_zero (q : Int) : roundAt q 0 = 0 := by
  have h0 := roundAt_mul_pow2 0 (le_refl q)
  rwa [Int.cast_zero, zero_mul] at h0

theorem round_eq_roundAt (x : Rat) : round x = roundAt (quantum x.abs) x := by
  unfold round
  split
  · next h => rw [h, roundAt_zero]
  · rfl

theorem quantum_mono (hx : 0 < x) (h : x ≤ y) : quantum x ≤ quantum y := by
  have hexponent : exponent x < exponent y + 1 :=
    (exponent_lt_iff hx).2 (h.trans_lt (exponent_bounds (hx.trans_le h)).2)
  unfold quantum
  omega

/-! ### The format -/

/-- The finite numbers of the format. -/
def Representable (x : Rat) : Prop := ∃ m e : Int, m.natAbs < 2 ^ 53 ∧ -1074 ≤ e ∧ e ≤ 971 ∧ x = m * pow2 e

/-- A way to round that respects the order, and that leaves the numbers of the format as they are. -/
structure IsRounding (round : Rat → Rat) : Prop where
  monotone : Monotone round
  fixes : ∀ x, Representable x → round x = x

theorem round_neg (x : Rat) : round (-x) = -round x := by
  rw [round_eq_roundAt, round_eq_roundAt, Rat.abs_neg, roundAt_neg]

theorem round_zero : round 0 = 0 := if_pos rfl

theorem round_of_pos (hx : 0 < x) : round x = roundAt (quantum x) x := by
  rw [round_eq_roundAt, Rat.abs_of_nonneg hx.le]

theorem round_mono_of_pos (hx : 0 < x) (h : x ≤ y) : round x ≤ round y := by
  have hy : 0 < y := hx.trans_le h
  rw [round_of_pos hx, round_of_pos hy]
  obtain hlt | heq := (quantum_mono hx h).lt_or_eq
  · -- The grid gets coarser at a power of two that lies between the numbers.
    have hq : quantum x < quantum y ∧ quantum y = exponent y - 52 ∧ exponent x < exponent y := by
      unfold quantum at hlt ⊢
      omega
    calc roundAt (quantum x) x ≤ roundAt (quantum x) (pow2 (exponent y)) :=
          roundAt_mono _ ((exponent_lt_iff hx).1 hq.2.2).le
      _ = pow2 (exponent y) := roundAt_pow2 (by omega)
      _ = roundAt (quantum y) (pow2 (exponent y)) := (roundAt_pow2 (by omega)).symm
      _ ≤ roundAt (quantum y) y := roundAt_mono _ (exponent_bounds hy).1
  · rw [heq]
    exact roundAt_mono _ h

theorem round_nonneg (hx : 0 ≤ x) : 0 ≤ round x := by
  rw [round_eq_roundAt, ← roundAt_zero (quantum x.abs)]
  exact roundAt_mono _ hx

theorem round_mono (h : x ≤ y) : round x ≤ round y := by
  obtain hx | hx := lt_or_ge 0 x
  · exact round_mono_of_pos hx h
  obtain hy | hy := lt_or_ge y 0
  · have hneg := round_mono_of_pos (neg_pos.2 hy) (neg_le_neg h)
    rw [round_neg, round_neg] at hneg
    exact neg_le_neg_iff.1 hneg
  · have hneg := round_nonneg (neg_nonneg.2 hx)
    rw [round_neg] at hneg
    exact (neg_nonneg.1 hneg).trans (round_nonneg hy)

theorem abs_eq (x : Rat) : x.abs = |x| := by
  obtain h | h := le_total 0 x
  · rw [Rat.abs_of_nonneg h, abs_of_nonneg h]
  · rw [Rat.abs_of_nonpos h, abs_of_nonpos h]

theorem quantum_le (hx : 0 < x) (hlt : x < pow2 (e + 53)) (he : -1074 ≤ e) : quantum x ≤ e := by
  have hexponent := (exponent_lt_iff hx).2 hlt
  unfold quantum
  omega

theorem abs_mul_pow2_lt {m : Int} (hm : m.natAbs < 2 ^ 53) (e : Int) : |m * pow2 e| < pow2 (e + 53) := by
  have hm' : ((m.natAbs : Nat) : Rat) < pow2 (53 : Nat) := by
    rw [pow2_natCast]
    exact Nat.cast_lt.2 hm
  rw [Nat.cast_natAbs, Int.cast_abs] at hm'
  rw [abs_mul, abs_of_pos (pow2_pos e), add_comm, pow2_add]
  exact mul_lt_mul_of_pos_right hm' (pow2_pos e)

theorem round_of_representable (h : Representable x) : round x = x := by
  obtain ⟨m, e, hm, he, -, rfl⟩ := h
  by_cases hzero : m * pow2 e = 0
  · rw [hzero, round_zero]
  · -- The grid around a number of the format is not coarser than the one that it belongs to.
    rw [round_eq_roundAt, abs_eq]
    exact roundAt_mul_pow2 m (quantum_le (abs_pos.2 hzero) (abs_mul_pow2_lt hm e) he)

theorem isRounding_round : IsRounding round := ⟨fun _ _ => round_mono, fun _ => round_of_representable⟩

/-! ### Nearest numbers -/

/-- The nearest number of the format. Of two that are equally near, either one is. -/
structure IsNearest (x r : Rat) : Prop where
  representable : Representable r
  nearest : ∀ y, Representable y → |x - r| ≤ |x - y|

theorem abs_sub_nearestEven_le_half (x : Rat) : |x - nearestEven x| ≤ 1 / 2 := by
  obtain ⟨n, part, rfl, hlo, hhi⟩ := exists_eq_add x
  rw [nearestEven_add n hlo hhi, abs_le]
  split_ifs <;> push_cast <;> constructor <;> linarith

theorem abs_sub_nearestEven_le (x : Rat) (n : Int) : |x - nearestEven x| ≤ |x - n| := by
  by_cases h : nearestEven x = n
  · rw [h]
  · -- Another integer is at least one away from the nearest, which is at most one half away.
    have hone : (1 : Rat) ≤ |(nearestEven x : Rat) - n| := by
      rw [← Int.cast_sub, ← Int.cast_abs]
      exact_mod_cast Int.one_le_abs (sub_ne_zero.2 h)
    have htriangle := abs_sub_le (nearestEven x : Rat) x n
    rw [abs_sub_comm _ x] at htriangle
    linarith [abs_sub_nearestEven_le_half x]

theorem abs_sub_roundAt_le (q : Int) (x : Rat) (n : Int) : |x - roundAt q x| ≤ |x - n * pow2 q| := by
  have hscale (z : Rat) : |x - z * pow2 q| = |x / pow2 q - z| * pow2 q := by
    rw [← abs_of_pos (pow2_pos q), ← abs_mul, abs_of_pos (pow2_pos q), sub_mul, div_mul_cancel₀ _ (pow2_pos q).ne']
  rw [roundAt, hscale, hscale]
  exact mul_le_mul_of_nonneg_right (abs_sub_nearestEven_le _ n) (pow2_pos q).le

/-- No number of the format is nearer than the one that a positive number is rounded to. -/
theorem abs_sub_round_le (hx : 0 < x) (hy : Representable y) : |x - round x| ≤ |x - y| := by
  obtain ⟨m, e, hm, he, -, rfl⟩ := hy
  rw [round_of_pos hx]
  obtain hle | hlt := le_or_gt (quantum x) e
  · obtain ⟨n, hn⟩ := exists_mul_pow2_eq m hle
    rw [hn]
    exact abs_sub_roundAt_le _ x n
  · -- A number of a finer grid is below the power of two where the grid of `x` begins.
    have hq : quantum x ≤ exponent x ∧ e + 53 ≤ exponent x := by
      unfold quantum at hlt ⊢
      omega
    obtain ⟨n, hn⟩ := exists_mul_pow2_eq 1 hq.1
    rw [Int.cast_one, one_mul] at hn
    have hbegin := (exponent_bounds hx).1
    have hbelow : m * pow2 e ≤ pow2 (exponent x) :=
      (le_abs_self _).trans ((abs_mul_pow2_lt hm e).le.trans (pow2_le_pow2_iff.2 hq.2))
    calc |x - roundAt (quantum x) x| ≤ |x - n * pow2 (quantum x)| := abs_sub_roundAt_le _ x n
      _ = x - pow2 (exponent x) := by rw [← hn, abs_of_nonneg (sub_nonneg.2 hbegin)]
      _ ≤ x - m * pow2 e := sub_le_sub_left hbelow x
      _ ≤ |x - m * pow2 e| := le_abs_self _

theorem representable_round (hx : 0 < x) (hlt : x < pow2 1023) : Representable (round x) := by
  have hq : -1074 ≤ quantum x ∧ quantum x ≤ 970 ∧ exponent x + 1 ≤ quantum x + 53 := by
    have hexponent := (exponent_lt_iff hx).2 hlt
    unfold quantum
    omega
  have hscaled : x / pow2 (quantum x) ≤ ((2 ^ 53 : Nat) : Int) := by
    rw [div_le_iff₀ (pow2_pos _), Int.cast_natCast, ← pow2_natCast, ← pow2_add, add_comm]
    exact (exponent_bounds hx).2.le.trans (pow2_le_pow2_iff.2 hq.2.2)
  have hnonneg : ((0 : Int) : Rat) ≤ x / pow2 (quantum x) := by
    rw [Int.cast_zero]
    exact (div_pos hx (pow2_pos _)).le
  have hlo := nearestEven_mono hnonneg
  have hhi := nearestEven_mono hscaled
  rw [nearestEven_intCast] at hlo hhi
  rw [round_of_pos hx, roundAt]
  obtain hhi | hhi := hhi.lt_or_eq
  · exact ⟨_, quantum x, by omega, hq.1, by omega, rfl⟩
  · -- A significand that fills up is the first one of the next grid.
    refine ⟨2 ^ 52, quantum x + 1, by decide, by omega, by omega, ?_⟩
    rw [hhi, add_comm, pow2_add, ← mul_assoc]
    congr 1
    norm_num [pow2_eq_zpow]

theorem isNearest_round (hx : 0 < x) (hlt : x < pow2 1023) : IsNearest x (round x) :=
  ⟨representable_round hx hlt, fun _ => abs_sub_round_le hx⟩

end Coupling.Binary64
