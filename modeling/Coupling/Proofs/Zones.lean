import Coupling.Proofs.MetricBounds

/-!
# Packages at a corner

A package that is concrete and stable, or abstract and unstable, lies at a corner far from the main sequence. The three
metrics are rounded one by one from numbers that are not, so the rounded ones need not fit together exactly, and the
distance is asked for first. Still the corners are never taken for the main sequence: what four places show of a number
bounds the number itself, hence the sum of the two shares, and from there the distance and what four places show of it. All
bounds on the way are numbers of the format, so any monotone rounding keeps to them.
-/

namespace Coupling

open Binary64 (IsRounding IsNearest Representable)

namespace Binary64

theorem representable_intCast {n : Int} (hn : n.natAbs < 2 ^ 53) : Representable (n : Rat) := by
  refine ⟨n, 0, hn, by decide, by decide, ?_⟩
  rw [pow2_eq_zpow, zpow_zero, mul_one]

theorem representable_eighth {x : Rat} (n : Int) (hn : n.natAbs < 2 ^ 53) (hx : x = n / 8) : Representable x := by
  refine ⟨n, -3, hn, by decide, by decide, ?_⟩
  rw [hx, pow2_eq_zpow]
  norm_num [div_eq_mul_inv]

variable {round : Rat → Rat} {x a : Rat}

theorem IsRounding.le_round (hround : IsRounding round) (ha : Representable a) (h : a ≤ x) : a ≤ round x := by
  rw [← hround.fixes a ha]
  exact hround.monotone h

theorem IsRounding.round_le (hround : IsRounding round) (ha : Representable a) (h : x ≤ a) : round x ≤ a := by
  rw [← hround.fixes a ha]
  exact hround.monotone h

end Binary64

namespace Metrics

open Binary64

variable {round : Rat → Rat} {x abstractness instability : Rat} {n : Int}

/-! ### What four places show -/

/-- The number of ten-thousandths that four places show. -/
def tenThousandths (round : Rat → Rat) (x : Rat) : Int := ⌊round (round (x * 10000) + 1 / 2)⌋

theorem roundPlaces_eq (round : Rat → Rat) (x : Rat) : roundPlaces round x = round (tenThousandths round x / 10000) := rfl

/-- From a half below on, a whole number of ten-thousandths is shown. -/
theorem le_tenThousandths (hround : IsRounding round) (hn : n.natAbs < 2 ^ 50) (h : n - 1 / 2 ≤ x * 10000) :
    n ≤ tenThousandths round x := by
  have hhalf : Representable ((n : Rat) - 1 / 2) := by
    refine representable_half (2 * n - 1) (by omega) ?_
    push_cast
    ring
  -- Below `2 ^ 50` halves are numbers of the format, so the first rounding does not go below this one.
  have hscaled := hround.le_round hhalf h
  rw [tenThousandths, Int.le_floor]
  refine hround.le_round (representable_intCast (by omega)) ?_
  linarith

/-- Up to a whole number of ten-thousandths, no more are shown. -/
theorem tenThousandths_le (hround : IsRounding round) (hn : n.natAbs < 2 ^ 50) (h : x * 10000 ≤ n) :
    tenThousandths round x ≤ n := by
  have hhalf : Representable ((n : Rat) + 1 / 2) := by
    refine representable_half (2 * n + 1) (by omega) ?_
    push_cast
    ring
  have hscaled := hround.round_le (representable_intCast (by omega)) h
  have hshifted : round (round (x * 10000) + 1 / 2) ≤ n + 1 / 2 := by
    refine hround.round_le hhalf ?_
    linarith
  rw [← Int.lt_add_one_iff, tenThousandths, Int.floor_lt]
  push_cast
  linarith

theorem round_tenThousandths_mono (hround : IsRounding round) {n n' : Int} (h : n ≤ n') :
    round (n / 10000) ≤ round (n' / 10000) :=
  hround.monotone (div_le_div_of_nonneg_right (Int.cast_le.2 h) (by norm_num))

theorem round_le_roundPlaces (hround : IsRounding round) (hn : n.natAbs < 2 ^ 50) (h : n - 1 / 2 ≤ x * 10000) :
    round (n / 10000) ≤ roundPlaces round x := by
  rw [roundPlaces_eq]
  exact round_tenThousandths_mono hround (le_tenThousandths hround hn h)

theorem roundPlaces_le_round (hround : IsRounding round) (hn : n.natAbs < 2 ^ 50) (h : x * 10000 ≤ n) :
    roundPlaces round x ≤ round (n / 10000) := by
  rw [roundPlaces_eq]
  exact round_tenThousandths_mono hround (tenThousandths_le hround hn h)

/-- What shows less than `n` ten-thousandths is less by a half at least. -/
theorem lt_of_roundPlaces_lt (hround : IsRounding round) (hn : n.natAbs < 2 ^ 50)
    (h : roundPlaces round x < round (n / 10000)) : x * 10000 < n - 1 / 2 := by
  by_contra hge
  exact absurd (round_le_roundPlaces hround hn (not_lt.1 hge)) (not_le.2 h)

/-- What shows more than `n` ten-thousandths is more. -/
theorem lt_of_lt_roundPlaces (hround : IsRounding round) (hn : n.natAbs < 2 ^ 50)
    (h : round (n / 10000) < roundPlaces round x) : n < x * 10000 := by
  by_contra hle
  exact absurd (roundPlaces_le_round hround hn (not_lt.1 hle)) (not_le.2 h)

/-! ### Distances at the corners -/

/-- Three eighths from the main sequence are shown as a distance that is not small. -/
theorem not_roundPlaces_lt (hround : IsRounding round) (h : 3 / 8 ≤ x) : ¬ roundPlaces round x < round (1 / 5) := by
  have hplaces : round ((3750 : Int) / 10000) ≤ roundPlaces round x := by
    refine round_le_roundPlaces hround (by decide) ?_
    push_cast
    linarith
  have hfifth : round (1 / 5) ≤ round ((3750 : Int) / 10000) := hround.monotone (by norm_num)
  exact not_lt.2 (hfifth.trans hplaces)

theorem le_distance_of_sum_le (hround : IsRounding round) (h : abstractness + instability ≤ 5 / 8) :
    3 / 8 ≤ distance round abstractness instability := by
  have hsum : round (abstractness + instability) ≤ 5 / 8 :=
    hround.round_le (representable_eighth 5 (by decide) (by norm_num)) h
  have hdifference : round (round (abstractness + instability) - 1) ≤ -(3 / 8) := by
    refine hround.round_le (representable_eighth (-3) (by decide) (by norm_num)) ?_
    linarith
  rw [distance, Binary64.abs_eq]
  exact (le_neg_of_le_neg hdifference).trans (neg_le_abs _)

theorem le_distance_of_le_sum (hround : IsRounding round) (h : 11 / 8 ≤ abstractness + instability) :
    3 / 8 ≤ distance round abstractness instability := by
  have hsum : 11 / 8 ≤ round (abstractness + instability) :=
    hround.le_round (representable_eighth 11 (by decide) (by norm_num)) h
  have hdifference : 3 / 8 ≤ round (round (abstractness + instability) - 1) := by
    refine hround.le_round (representable_eighth 3 (by decide) (by norm_num)) ?_
    linarith
  rw [distance, Binary64.abs_eq]
  exact hdifference.trans (le_abs_self _)

/-- Two shares that show as low lie far from the main sequence, and so does what is shown. -/
theorem far_of_low (hround : IsRounding round) (ha : roundPlaces round abstractness < round (3 / 10))
    (hi : roundPlaces round instability < round (3 / 10)) :
    ¬ roundPlaces round (distance round abstractness instability) < round (1 / 5) := by
  have hthree : round (3 / 10) = round ((3000 : Int) / 10000) := congrArg round (by norm_num)
  rw [hthree] at ha hi
  have ha' := lt_of_roundPlaces_lt hround (by decide) ha
  have hi' := lt_of_roundPlaces_lt hround (by decide) hi
  push_cast at ha' hi'
  exact not_roundPlaces_lt hround (le_distance_of_sum_le hround (by linarith))

/-- Two shares that show as high lie far from the main sequence, and so does what is shown. -/
theorem far_of_high (hround : IsRounding round) (ha : round (7 / 10) < roundPlaces round abstractness)
    (hi : round (7 / 10) < roundPlaces round instability) :
    ¬ roundPlaces round (distance round abstractness instability) < round (1 / 5) := by
  have hseven : round (7 / 10) = round ((7000 : Int) / 10000) := congrArg round (by norm_num)
  rw [hseven] at ha hi
  have ha' := lt_of_lt_roundPlaces hround (by decide) ha
  have hi' := lt_of_lt_roundPlaces hround (by decide) hi
  push_cast at ha' hi'
  exact not_roundPlaces_lt hround (le_distance_of_le_sum hround (by linarith))

/-! ### Zones at the corners -/

/-- The corners are told as such, and are not close to the main sequence. -/
structure CornersShown (round : Rat → Rat) (m : PackageMetrics) : Prop where
  pain : m.abstractness < round (3 / 10) → m.instability < round (3 / 10) →
    (zone round m).name = "zone of pain" ∧ ¬ m.distance < round (1 / 5)
  uselessness : round (7 / 10) < m.abstractness → round (7 / 10) < m.instability →
    (zone round m).name = "zone of uselessness" ∧ ¬ m.distance < round (1 / 5)

theorem zone_of_low {m : PackageMetrics} (hd : ¬ m.distance < round (1 / 5)) (ha : m.abstractness < round (3 / 10))
    (hi : m.instability < round (3 / 10)) : zone round m = .pain := by
  rw [zone, if_neg hd, if_pos ⟨ha, hi⟩]

theorem zone_of_high (hround : IsRounding round) {m : PackageMetrics} (hd : ¬ m.distance < round (1 / 5))
    (ha : round (7 / 10) < m.abstractness) (hi : round (7 / 10) < m.instability) : zone round m = .uselessness := by
  have hbounds : round (3 / 10) ≤ round (7 / 10) := hround.monotone (by norm_num)
  rw [zone, if_neg hd, if_neg fun hlow => absurd hlow.1 (not_lt.2 (hbounds.trans ha.le)), if_pos ⟨ha, hi⟩]

/-- The corners are shown whatever the graph holds. -/
theorem cornersShown_ofPackage (hround : IsRounding round) (g : Graph) (p : Text) :
    CornersShown round (ofPackage round g p) := by
  constructor
  · intro ha hi
    have hfar := far_of_low hround ha hi
    exact ⟨congrArg Zone.name (zone_of_low hfar ha hi), hfar⟩
  · intro ha hi
    have hfar := far_of_high hround ha hi
    exact ⟨congrArg Zone.name (zone_of_high hround hfar ha hi), hfar⟩

/-- The numbers that zones are told apart by. -/
def zoneBounds : List Rat := [1 / 5, 3 / 10, 7 / 10]

theorem isNearest_zoneBounds : ∀ c ∈ zoneBounds, IsNearest c (Binary64.round c) := by
  have hone : (1 : Rat) < pow2 1023 := by
    have h := pow2_lt_pow2_iff.2 (show (0 : Int) < 1023 by decide)
    rwa [pow2_eq_zpow 0, zpow_zero] at h
  intro c hc
  have hrange : 0 < c ∧ c < 1 := by
    simp only [zoneBounds, List.mem_cons, List.not_mem_nil, or_false] at hc
    obtain rfl | rfl | rfl := hc <;> norm_num
  exact isNearest_round hrange.1 (hrange.2.trans hone)

end Metrics

namespace Family

variable {ι : Type} [DecidableEq ι]

/-- Whatever is done to graphs, from empty ones on, and whatever the rounding, as long as it is monotone and leaves the
numbers of the format as they are: a package with low abstractness and instability is in the zone of pain, one with high
abstractness and instability is in the zone of uselessness, and neither is close to the main sequence. Rounding to the
nearest number is of this kind, for the numbers that zones are told apart by too, so it holds of what is reported. -/
theorem corners_shown (restricted : ι → Bool) (operations : List (Operation ι)) (i : ι) :
    (∀ round, IsRounding round → ∀ p, Metrics.CornersShown round (Metrics.ofPackage round (run restricted operations i) p)) ∧
    IsRounding Binary64.round ∧ (∀ c ∈ Metrics.zoneBounds, IsNearest c (Binary64.round c)) ∧
    ∀ packages, ∀ m ∈ (run restricted operations i).metrics packages,
      (m.abstractness < Binary64.round (3 / 10) → m.instability < Binary64.round (3 / 10) →
        m.zone.name = "zone of pain" ∧ ¬ m.distance < Binary64.round (1 / 5)) ∧
      (Binary64.round (7 / 10) < m.abstractness → Binary64.round (7 / 10) < m.instability →
        m.zone.name = "zone of uselessness" ∧ ¬ m.distance < Binary64.round (1 / 5)) := by
  refine ⟨fun round hround p => Metrics.cornersShown_ofPackage hround _ p, Binary64.isRounding_round,
    Metrics.isNearest_zoneBounds, fun packages m hm => ?_⟩
  obtain ⟨p, -, rfl⟩ := List.mem_map.1 hm
  obtain ⟨hpain, huselessness⟩ := Metrics.cornersShown_ofPackage Binary64.isRounding_round (run restricted operations i) p
  exact ⟨hpain, huselessness⟩

end Family

end Coupling
