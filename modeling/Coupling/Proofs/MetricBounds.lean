import Coupling.Metrics
import Coupling.Proofs.Families
import Coupling.Proofs.Rounding
import Mathlib.Order.Interval.Set.Defs

/-!
# Metrics stay between zero and one

Instability and abstractness are shares of a whole, and distance is how far the sum of the two lies from one, so in exact
arithmetic all three lie between zero and one. They stay there in any arithmetic whose rounding is monotone and leaves
the numbers of the format as they are, since the bounds that the steps of the computation keep to are numbers of the format.
And no step divides by zero.
-/

namespace Coupling

open Binary64 (IsRounding Representable)

/-! ### Bounds that rounding keeps -/

namespace Binary64

/-- Whole numbers and halves that are not too large belong to the format. -/
theorem representable_half {x : Rat} (n : Int) (hn : n.natAbs < 2 ^ 53) (hx : x = n / 2) : Representable x := by
  refine ⟨n, -1, hn, by decide, by decide, ?_⟩
  rw [hx, pow2_eq_zpow, zpow_neg_one, div_eq_mul_inv]

theorem IsRounding.mem_Icc {round : Rat → Rat} {x a b : Rat} (hround : IsRounding round) (ha : Representable a)
    (hb : Representable b) (hx : x ∈ Set.Icc a b) : round x ∈ Set.Icc a b := by
  have hle := hround.monotone hx.1
  have hge := hround.monotone hx.2
  rw [hround.fixes a ha] at hle
  rw [hround.fixes b hb] at hge
  exact ⟨hle, hge⟩

theorem representable_zero : Representable 0 := representable_half 0 (by decide) (by norm_num)

theorem representable_one : Representable 1 := representable_half 2 (by decide) (by norm_num)

end Binary64

namespace Metrics

open Binary64

variable {round : Rat → Rat} {x abstractness instability : Rat}

theorem share_eq (round : Rat → Rat) (a b : Nat) : share round a b = if b = 0 then 0 else round (a / b) := by
  rw [share, shareBy]
  split
  · rfl
  · rfl

theorem share_mem_Icc (hround : IsRounding round) {a b : Nat} (h : a ≤ b) : share round a b ∈ Set.Icc 0 1 := by
  rw [share_eq]
  split
  · exact ⟨le_rfl, zero_le_one⟩
  · next hb =>
    have hb' : (0 : Rat) < b := Nat.cast_pos.2 (Nat.pos_of_ne_zero hb)
    refine hround.mem_Icc representable_zero representable_one ⟨div_nonneg a.cast_nonneg hb'.le, ?_⟩
    rw [div_le_one hb']
    exact Nat.cast_le.2 h

theorem distance_mem_Icc (hround : IsRounding round) (ha : abstractness ∈ Set.Icc 0 1) (hi : instability ∈ Set.Icc 0 1) :
    distance round abstractness instability ∈ Set.Icc 0 1 := by
  have hsum : round (abstractness + instability) ∈ Set.Icc 0 2 := by
    refine hround.mem_Icc representable_zero (representable_half 4 (by decide) (by norm_num)) ⟨?_, ?_⟩
    · linarith [ha.1, hi.1]
    · linarith [ha.2, hi.2]
  have hdifference : round (round (abstractness + instability) - 1) ∈ Set.Icc (-1) 1 := by
    refine hround.mem_Icc (representable_half (-2) (by decide) (by norm_num)) representable_one ⟨?_, ?_⟩
    · linarith [hsum.1]
    · linarith [hsum.2]
  unfold distance
  rw [Binary64.abs_eq]
  exact ⟨abs_nonneg _, abs_le.2 hdifference⟩

theorem roundPlaces_mem_Icc (hround : IsRounding round) (hx : x ∈ Set.Icc 0 1) : roundPlaces round x ∈ Set.Icc 0 1 := by
  have hscaled : round (x * 10000) ∈ Set.Icc 0 10000 := by
    refine hround.mem_Icc representable_zero (representable_half 20000 (by decide) (by norm_num)) ⟨?_, ?_⟩
    · linarith [hx.1]
    · linarith [hx.2]
  have hshifted : round (round (x * 10000) + 1 / 2) ∈ Set.Icc (1 / 2) (20001 / 2) := by
    refine hround.mem_Icc (representable_half 1 (by decide) (by norm_num))
      (representable_half 20001 (by decide) (by norm_num)) ⟨?_, ?_⟩
    · linarith [hscaled.1]
    · linarith [hscaled.2]
  have hfloor : 0 ≤ ⌊round (round (x * 10000) + 1 / 2)⌋ ∧ ⌊round (round (x * 10000) + 1 / 2)⌋ < 10001 := by
    rw [Int.floor_nonneg, Int.floor_lt]
    constructor
    · linarith [hshifted.1]
    · push_cast
      linarith [hshifted.2]
  unfold roundPlaces
  refine hround.mem_Icc representable_zero representable_one ⟨?_, ?_⟩
  · exact div_nonneg (Int.cast_nonneg hfloor.1) (by norm_num)
  · rw [div_le_one (by norm_num)]
    have hle : (⌊round (round (x * 10000) + 1 / 2)⌋ : Rat) ≤ (10000 : Int) := Int.cast_le.2 (Int.lt_add_one_iff.1 hfloor.2)
    exact hle

/-! ### Division -/

theorem shareBy_divide? (round : Rat → Rat) (a b : Nat) : shareBy (divide? round) a b = some (share round a b) := by
  rw [share_eq, shareBy, divide?]
  split
  · rfl
  · next hb => rw [if_neg (Nat.cast_ne_zero.2 hb)]

theorem roundPlacesBy_divide? (round : Rat → Rat) (x : Rat) :
    roundPlacesBy (divide? round) round x = some (roundPlaces round x) := by
  rw [roundPlacesBy, divide?, if_neg (by norm_num)]
  rfl

/-- No division is by zero. -/
theorem ofPackage?_eq (round : Rat → Rat) (g : Graph) (package : Text) :
    ofPackage? round g package = some (ofPackage round g package) := by
  simp only [ofPackage?, ofPackageBy, shareBy_divide?, roundPlacesBy_divide?, Option.bind_eq_bind, Option.bind_some,
    Option.pure_def]
  rfl

end Metrics

/-- Metrics that lie between zero and one. -/
structure PackageMetrics.IsWithinUnit (m : PackageMetrics) : Prop where
  instability : m.instability ∈ Set.Icc 0 1
  abstractness : m.abstractness ∈ Set.Icc 0 1
  distance : m.distance ∈ Set.Icc 0 1

theorem Graph.Consistent.isWithinUnit_ofPackage {g : Graph} (hg : g.Consistent) {round : Rat → Rat}
    (hround : IsRounding round) (p : Text) : (Metrics.ofPackage round g p).IsWithinUnit := by
  have hinstability := Metrics.share_mem_Icc hround (Nat.le_add_right (g.node p).outgoing.size (g.node p).incoming.size)
  have habstractness := Metrics.share_mem_Icc hround (hg.abstract_le p)
  exact ⟨Metrics.roundPlaces_mem_Icc hround hinstability, Metrics.roundPlaces_mem_Icc hround habstractness,
    Metrics.roundPlaces_mem_Icc hround (Metrics.distance_mem_Icc hround habstractness hinstability)⟩

namespace Family

variable {ι : Type} [DecidableEq ι]

/-- Whatever is done to graphs, from empty ones on, and whatever the rounding, as long as it is monotone and leaves the
numbers of the format as they are: the metrics of every package lie between zero and one, and they are computed without a
division by zero. Rounding to the nearest number is of this kind, so what is reported lies between zero and one. -/
theorem metrics_within_unit (restricted : ι → Bool) (operations : List (Operation ι)) (i : ι) :
    (∀ round, IsRounding round → ∀ p, (Metrics.ofPackage round (run restricted operations i) p).IsWithinUnit ∧
      Metrics.ofPackage? round (run restricted operations i) p =
        some (Metrics.ofPackage round (run restricted operations i) p)) ∧
    IsRounding Binary64.round ∧
    ∀ packages, ∀ m ∈ (run restricted operations i).metrics packages, m.IsWithinUnit := by
  have hconsistent := consistent_run restricted operations i
  refine ⟨fun round hround p => ?_, Binary64.isRounding_round, fun packages m hm => ?_⟩
  · exact ⟨hconsistent.isWithinUnit_ofPackage hround p, Metrics.ofPackage?_eq round _ p⟩
  · obtain ⟨p, -, rfl⟩ := List.mem_map.1 hm
    exact hconsistent.isWithinUnit_ofPackage Binary64.isRounding_round p

end Family

end Coupling
