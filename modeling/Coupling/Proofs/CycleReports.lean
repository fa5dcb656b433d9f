import Coupling.Proofs.Course
import Coupling.Proofs.Families
import Coupling.Proofs.Targets

/-!
# No cycle is lost

The dependencies of a graph are listed only for packages that own a class or depend on something, and cycles are looked for
among these packages only. Still none is lost, because whatever lies on a way that leads back to its start depends on
something. In the report on an analysis the same cycles can be read off the metrics: all their packages were analyzed, and
each of them has a dependency and a dependent.
-/

namespace Coupling

open Relation (ReflTransGen)

namespace Graph

variable {g : Graph} {p q : Text} {c : List Text}

/-- Which package depends on which. -/
def Depends (g : Graph) (p q : Text) : Prop := q ∈ g.outgoing p

theorem Consistent.mem_packages_of_depends (hg : g.Consistent) (h : g.Depends p q) : p ∈ g.packages := by
  refine hg.mem_packages_iff.2 (.inr fun hnone => ?_)
  exact SortedSet.not_mem_empty q (hnone ▸ h)

/-- A dependency on a way that leads back is one between listed packages. -/
theorem Consistent.links_of_depends (hg : g.Consistent) (h : g.Depends p q) (hback : ReflTransGen g.Depends q p) :
    Adjacency.Links g.edges p q := by
  have hq : q ∈ g.packages := by
    obtain rfl | ⟨r, hr, -⟩ := hback.cases_head
    · exact hg.mem_packages_of_depends h
    · exact hg.mem_packages_of_depends hr
  exact links_edges.2 ⟨hg.mem_packages_of_depends h, hq, h⟩

/-- A way that leads back goes along listed packages only. -/
theorem Consistent.reaches_of_mutual (hg : g.Consistent) (h : ReflTransGen g.Depends p q)
    (hback : ReflTransGen g.Depends q p) : Adjacency.Reaches g.edges p q := by
  induction h with
  | refl => exact .refl
  | @tail u v hu hstep ih =>
    have hlink : Adjacency.Links g.edges u v := hg.links_of_depends hstep (hback.trans hu)
    exact (ih (.head hstep hback)).tail hlink

theorem depends_of_reaches (h : Adjacency.Reaches g.edges p q) : ReflTransGen g.Depends p q := by
  have hle : Adjacency.Links g.edges ≤ g.Depends := fun _ _ hlink => (links_edges.1 hlink).2.2
  exact ReflTransGen.mono hle p q h

theorem Consistent.mutual_iff (hg : g.Consistent) :
    Adjacency.Mutual g.edges p q ↔ ReflTransGen g.Depends p q ∧ ReflTransGen g.Depends q p := by
  constructor
  · rintro ⟨h, h'⟩
    exact ⟨depends_of_reaches h, depends_of_reaches h'⟩
  · rintro ⟨h, h'⟩
    exact ⟨hg.reaches_of_mutual h h', hg.reaches_of_mutual h' h⟩

/-- The cycles among the listed packages are those among all packages. -/
theorem Consistent.mem_cycles_iff (hg : g.Consistent) : c ∈ Adjacency.cycles g.edges ↔ IsCycle g.Depends c := by
  have hkeys : (Adjacency.keys g.edges).Nodup := by
    rw [keys_edges]
    exact g.nodup_packages
  rw [Adjacency.mem_cycles hkeys]
  simp only [hg.mutual_iff]
  constructor
  · rintro ⟨htwo, hincreasing, v, -, hv⟩
    exact ⟨htwo, hincreasing, v, hv⟩
  · intro h
    obtain ⟨v, hv⟩ := h.isClass
    obtain ⟨w, hw⟩ := h.exists_next ((hv v).2 ⟨.refl, .refl⟩)
    refine ⟨h.two_le, h.increasing, v, ?_, hv⟩
    rw [keys_edges]
    exact hg.mem_packages_of_depends hw

end Graph

/-! ### Reports -/

namespace AnalysisResult

variable {result : AnalysisResult}

/-- Which package depends on which, by the metrics in a report. -/
def Depends (result : AnalysisResult) (p q : Text) : Prop := ∃ m ∈ result.metrics, m.package = p ∧ q ∈ m.outgoing

/-- A report whose cycles are those of its metrics, among the packages that were analyzed. -/
structure ShowsCycles (result : AnalysisResult) : Prop where
  /-- The cycles are the classes of packages that depend on each other. -/
  complete : ∀ c, c ∈ result.cycles ↔ IsCycle result.Depends c
  /-- Unless the scan was called off, all packages have metrics. -/
  measured : result.scan.cancelled = false → ∀ p ∈ result.packages, p ∈ result.metrics.map (·.package)
  /-- Their packages were analyzed, and they have metrics. -/
  analyzed : ∀ c ∈ result.cycles, ∀ p ∈ c, p ∈ result.packages ∧ p ∈ result.metrics.map (·.package)
  /-- Their packages have dependencies and dependents. -/
  coupled : ∀ c ∈ result.cycles, ∀ p ∈ c, ∀ m ∈ result.metrics, m.package = p → 1 ≤ m.ce ∧ 1 ≤ m.ca

/-- Without metrics there are no dependencies, and no cycles. -/
theorem showsCycles_of_nil (hmetrics : result.metrics = []) (hcycles : result.cycles = [])
    (hmeasured : result.scan.cancelled = false → result.packages = []) : result.ShowsCycles := by
  refine ⟨fun c => iff_of_false ?_ fun h => ?_, fun hcancelled => ?_, ?_, ?_⟩
  · simp [hcycles]
  · obtain ⟨p, hp, -⟩ := h.exists_ne []
    obtain ⟨q, m, hm, -⟩ := h.exists_next hp
    simp [hmetrics] at hm
  · simp [hmeasured hcancelled]
  · simp [hcycles]
  · simp [hcycles]

/-- The metrics of all packages of a graph show its cycles, if no others depend on anything. -/
theorem showsCycles_of_graph {g : Graph} (hg : g.Consistent) (hmetrics : result.metrics = g.metrics result.packages)
    (hcycles : result.cycles = Adjacency.cycles g.edges) (hpackages : ∀ p q, g.Depends p q → p ∈ result.packages) :
    result.ShowsCycles := by
  have hmem {m : PackageMetrics} : m ∈ result.metrics ↔ ∃ p ∈ result.packages, Metrics.ofPackage Binary64.round g p = m := by
    simp [hmetrics, Graph.metrics, Metrics.ofPackages]
  have hdepends : result.Depends = g.Depends := by
    funext p q
    refine propext ⟨?_, fun hq => ?_⟩
    · rintro ⟨m, hm, rfl, hq⟩
      obtain ⟨p, -, rfl⟩ := hmem.1 hm
      exact hq
    · exact ⟨_, hmem.2 ⟨p, hpackages p q hq, rfl⟩, rfl, hq⟩
  have hcycle {c : List Text} : c ∈ result.cycles ↔ IsCycle g.Depends c := by
    rw [hcycles, hg.mem_cycles_iff]
  have hmeasured {p : Text} (hp : p ∈ result.packages) : p ∈ result.metrics.map (·.package) :=
    List.mem_map.2 ⟨_, hmem.2 ⟨p, hp, rfl⟩, rfl⟩
  refine ⟨fun c => hdepends ▸ hcycle, fun _ _ => hmeasured, fun c hc p hp => ?_, fun c hc p hp m hm hpackage => ?_⟩
  · obtain ⟨q, hq⟩ := (hcycle.1 hc).exists_next hp
    exact ⟨hpackages p q hq, hmeasured (hpackages p q hq)⟩
  · obtain ⟨q, hq⟩ := (hcycle.1 hc).exists_next hp
    obtain ⟨q', hq'⟩ := (hcycle.1 hc).exists_previous hp
    obtain ⟨p', -, rfl⟩ := hmem.1 hm
    obtain rfl : p' = p := hpackage
    exact ⟨List.length_pos_of_mem hq, List.length_pos_of_mem ((hg.mirror q' p').1 hq')⟩

end AnalysisResult

namespace Analysis

/-- The report on every analysis that comes to an end shows all cycles. -/
theorem Course.showsCycles {readers : Readers} {t : FileTree} {r : Request} {result : AnalysisResult}
    (h : Course readers t r (.ok result)) : result.ShowsCycles := by
  generalize houtcome : Except.ok result = outcome at h
  cases h with
  | fails => cases houtcome
  | nothing h =>
    cases houtcome
    exact AnalysisResult.showsCycles_of_nil rfl rfl fun _ => rfl
  | @scanned s packages roots m _ hm =>
    cases houtcome
    unfold resultOf
    split
    · next hcancelled =>
      exact AnalysisResult.showsCycles_of_nil rfl rfl fun h => absurd (h.symm.trans hcancelled) Bool.false_ne_true
    · next hcancelled =>
      obtain ⟨restricted, calls, htargets, hgraph⟩ := hm.recorded
      have hg : m.graph.Consistent := hgraph ▸ (Graph.consistent_empty restricted).recordCalls calls
      refine AnalysisResult.showsCycles_of_graph hg (hm.metrics (Bool.eq_false_iff.2 hcancelled)) rfl fun p q hq => ?_
      -- Only recorded classes add dependencies, and they are of target packages.
      rw [Graph.Depends, hgraph, Graph.mem_outgoing_recordCalls] at hq
      obtain hq | ⟨k, hk, hkept, rfl, -⟩ := hq
      · exact absurd hq (Graph.not_mem_outgoing_empty restricted p q)
      · show k.package ∈ packages
        rw [← htargets k hk]
        exact List.contains_iff_mem.1 hkept

end Analysis

namespace Family

variable {ι : Type} [DecidableEq ι]

/-- Whatever is done to graphs, from empty ones on, the cycles that are found among the listed dependencies of a graph are
exactly the classes, in order, of two or more packages that can be reached from each other along its dependencies. The
report on an analysis shows the same: its cycles are those of its metrics, which all packages have unless the scan was
called off, their packages were analyzed, and every one of them has a dependency and a dependent. -/
theorem cycles_complete (restricted : ι → Bool) (operations : List (Operation ι)) (i : ι) :
    (Adjacency.cycles (run restricted operations i).edges).Pairwise (· < ·) ∧
    (∀ c, c ∈ Adjacency.cycles (run restricted operations i).edges ↔ IsCycle (run restricted operations i).Depends c) ∧
    ∀ (readers : Readers) (t : FileTree) (r : Analysis.Request) (log log' : Log) (result : AnalysisResult),
      (Analysis.run readers t r).run.run log = (.ok result, log') → result.ShowsCycles := by
  refine ⟨Adjacency.cycles_increasing _, fun c => (consistent_run restricted operations i).mem_cycles_iff, ?_⟩
  intro readers t r log log' result hrun
  obtain ⟨outcome, hends, hcourse⟩ := Analysis.exists_course readers t r
  rw [← hends.eq_of_run hrun] at hcourse
  exact hcourse.showsCycles

end Family

end Coupling
