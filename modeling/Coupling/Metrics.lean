import Coupling.Graph
import Coupling.Number.Binary64

/-!
# Coupling metrics

For a package that depends on `Ce` packages and that `Ca` packages depend on, instability is `Ce / (Ce + Ca)`,
abstractness is the share of its abstract classes and interfaces, and distance is how far the sum of the two lies from
one: on the main sequence, abstract packages are stable and unstable ones concrete. All three are rounded to four
places, halves upwards.

The arithmetic is that of a floating-point format: every operation is exact and is followed by a rounding, which is a
parameter here. Reports use `Binary64.round`. The division is a parameter too, so that one computation tells both what
the metrics are and whether anything was divided by zero.
-/

namespace Coupling

/-- The metrics of a package. -/
structure PackageMetrics where
  /-- The package. -/
  package : Text
  /-- How many packages it depends on. -/
  ce : Nat := 0
  /-- How many packages depend on it. -/
  ca : Nat := 0
  /-- Its instability. -/
  instability : Rat := 0
  /-- Its abstractness. -/
  abstractness : Rat := 0
  /-- Its distance from the main sequence. -/
  distance : Rat := 1
  /-- The packages it depends on. -/
  outgoing : SortedSet Text := ∅
  /-- The packages that depend on it. -/
  incoming : SortedSet Text := ∅
  /-- The number of its classes. -/
  total : Nat := 0
  /-- The number of its abstract classes and interfaces. -/
  abstract : Nat := 0

/-- Where a package lies with respect to the main sequence. -/
inductive Zone where
  /-- Close to the main sequence. -/
  | mainSequence
  /-- Stable and concrete. -/
  | pain
  /-- Unstable and abstract. -/
  | uselessness
  /-- Anywhere else. -/
  | off
  deriving DecidableEq

/-- The name of a zone. -/
def Zone.name : Zone → String
  | .mainSequence => "main sequence"
  | .pain => "zone of pain"
  | .uselessness => "zone of uselessness"
  | .off => "off main sequence"

namespace Metrics

/-! ### Division -/

/-- Division, followed by a rounding. -/
def divide (round : Rat → Rat) (x y : Rat) : Id Rat := round (x / y)

/-- Division, which has no result if the divisor is zero. -/
def divide? (round : Rat → Rat) (x y : Rat) : Option Rat := if y = 0 then none else some (round (x / y))

/-! ### The computation -/

section Computation

variable {m : Type → Type} [Monad m] (divideBy : Rat → Rat → m Rat) (round : Rat → Rat)

/-- The share of `a` in `b`, by a division; nothing has no share. -/
def shareBy (a b : Nat) : m Rat := if b = 0 then pure 0 else divideBy a b

/-- The distance from the main sequence. -/
def distance (abstractness instability : Rat) : Rat := (round (round (abstractness + instability) - 1)).abs

/-- Rounds to four places, halves upwards, by a division. -/
def roundPlacesBy (x : Rat) : m Rat := divideBy (round (round (x * 10000) + 1 / 2)).floor 10000

/-- The metrics of a package, by a division. -/
def ofPackageBy (g : Graph) (package : Text) : m PackageMetrics := do
  let n := g.node package
  let ce := n.outgoing.size
  let ca := n.incoming.size
  let instability ← shareBy divideBy ce (ce + ca)
  let abstractness ← shareBy divideBy n.abstract n.total
  pure
    { package, ce, ca
      instability := ← roundPlacesBy divideBy round instability
      abstractness := ← roundPlacesBy divideBy round abstractness
      distance := ← roundPlacesBy divideBy round (distance round abstractness instability)
      outgoing := n.outgoing
      incoming := n.incoming
      total := n.total
      abstract := n.abstract }

end Computation

/-- The share of `a` in `b`. -/
def share (round : Rat → Rat) (a b : Nat) : Rat := (shareBy (divide round) a b).run

/-- Rounds to four places, halves upwards. -/
def roundPlaces (round : Rat → Rat) (x : Rat) : Rat := (roundPlacesBy (divide round) round x).run

/-- The metrics of a package. -/
def ofPackage (round : Rat → Rat) (g : Graph) (package : Text) : PackageMetrics :=
  (ofPackageBy (divide round) round g package).run

/-- The metrics of a package; there are none if a division is by zero. -/
def ofPackage? (round : Rat → Rat) (g : Graph) (package : Text) : Option PackageMetrics :=
  ofPackageBy (divide? round) round g package

/-- The metrics of some packages, in order and once each. -/
def ofPackages (round : Rat → Rat) (g : Graph) (packages : List Text) : List PackageMetrics :=
  packages.eraseDups.map (ofPackage round g)

/-- Where a package lies. The bounds are numbers of the format too. -/
def zone (round : Rat → Rat) (m : PackageMetrics) : Zone :=
  if m.distance < round (1 / 5) then .mainSequence
  else if m.abstractness < round (3 / 10) ∧ m.instability < round (3 / 10) then .pain
  else if round (7 / 10) < m.abstractness ∧ round (7 / 10) < m.instability then .uselessness
  else .off

/-- Why a number cannot be rounded to four places. -/
inductive RoundingFault where
  /-- It is not a number. -/
  | undefined
  /-- It is infinite, or becomes so on the way. -/
  | overflow
  deriving DecidableEq

/-- Rounds any number of the 64-bit format to four places, within the range of the format. -/
def roundValue : Binary64.Value → Except RoundingFault Rat
  | .undefined => .error .undefined
  | .infinite => .error .overflow
  | .finite x =>
    if Binary64.limit ≤ (Binary64.round (x * 10000)).abs then .error .overflow
    else .ok (roundPlaces Binary64.round x)

end Metrics

/-- The zone of a package in reports. -/
def PackageMetrics.zone (m : PackageMetrics) : Zone := Metrics.zone Binary64.round m

/-- The metrics of packages in reports. -/
def Graph.metrics (g : Graph) (packages : List Text) : List PackageMetrics :=
  Metrics.ofPackages Binary64.round g packages

end Coupling
