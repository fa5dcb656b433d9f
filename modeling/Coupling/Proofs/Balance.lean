import Coupling.Proofs.Targets
import Mathlib.Data.List.Induction
import Mathlib.Data.Set.Card

/-!
# Couplings balance

Every dependency is counted twice in the metrics of a graph: with the package that has it, and with the package that it
leads to. So the two sums agree when all dependencies stay among the packages that are measured, and otherwise the
dependencies that leave them make the difference. The packages are measured once each, in the order in which they are
first asked for, and what is found for one does not depend on what else is asked for.
-/

namespace Coupling

/-! ### First occurrences -/

/-- The members of a list, in the order in which they come first. -/
structure IsFirsts {α : Type} [BEq α] (l firsts : List α) : Prop where
  mem_iff : ∀ a, a ∈ firsts ↔ a ∈ l
  ordered : firsts.Pairwise fun a b => l.idxOf a < l.idxOf b

theorem IsFirsts.nodup {α : Type} [BEq α] {l firsts : List α} (h : IsFirsts l firsts) : firsts.Nodup := by
  refine h.ordered.imp fun {a b} hlt heq => ?_
  rw [heq] at hlt
  exact Nat.lt_irrefl _ hlt

theorem isFirsts_eraseDups {α : Type} [BEq α] [LawfulBEq α] (l : List α) : IsFirsts l l.eraseDups := by
  refine ⟨fun a => List.mem_eraseDups, ?_⟩
  induction l using List.reverseRecOn with
  | nil => exact .nil
  | append_singleton l a ih =>
    have hl : l.eraseDups.Pairwise fun b c => (l ++ [a]).idxOf b < (l ++ [a]).idxOf c := by
      refine ih.imp_of_mem fun {b c} hb hc hlt => ?_
      rw [List.mem_eraseDups] at hb hc
      rwa [List.idxOf_append_of_mem hb, List.idxOf_append_of_mem hc]
    by_cases ha : a ∈ l
    · have hnone : [a].removeAll l = [] := by simp [List.removeAll, ha]
      rwa [List.eraseDups_append, hnone, List.eraseDups_nil, List.append_nil]
    · have hsome : [a].removeAll l = [a] := by simp [List.removeAll, ha]
      rw [List.eraseDups_append, hsome, List.pairwise_append]
      refine ⟨hl, List.pairwise_singleton .., fun b hb c hc => ?_⟩
      -- The new member comes after the whole list.
      rw [List.mem_eraseDups] at hb hc
      obtain rfl := List.mem_singleton.1 hc
      rw [List.idxOf_append_of_mem hb, List.idxOf_append_of_notMem ha]
      exact Nat.lt_add_right _ (List.idxOf_lt_length_of_mem hb)

/-! ### Counting pairs -/

theorem encard_of_nodup {α : Type} {l : List α} {s : Set α} (hl : l.Nodup) (hs : ∀ a, a ∈ s ↔ a ∈ l) :
    s.encard = l.length := by
  classical
  have hset : s = l.toFinset := by
    ext a
    rw [hs, List.coe_toFinset, Set.mem_ofPred_eq]
  rw [hset, Set.encard_coe_eq_coe_finsetCard, List.toFinset_card_of_nodup hl]

/-- Sets of packages at some packages make as many pairs as they have members together. -/
theorem encard_pairs (sets : Text → SortedSet Text) {packages : List Text} (h : packages.Nodup) :
    {e : Text × Text | e.1 ∈ packages ∧ e.2 ∈ sets e.1}.encard = (packages.map fun p => (sets p).size).sum := by
  have hnodup : (packages.flatMap fun p => (sets p).toList.map fun q => (p, q)).Nodup := by
    refine List.nodup_flatMap.2 ⟨fun p _ => ?_, h.imp fun {p p'} hne e he he' => ?_⟩
    · have hset : (sets p).toList.Nodup := (sets p).increasing.imp Std.ne_of_lt
      exact hset.map fun q q' heq => (Prod.mk.inj heq).2
    · obtain ⟨q, -, rfl⟩ := List.mem_map.1 he
      obtain ⟨q', -, heq⟩ := List.mem_map.1 he'
      exact hne (Prod.mk.inj heq).1.symm
  rw [encard_of_nodup hnodup fun e => ?_, List.length_flatMap]
  · simp only [List.length_map, SortedSet.size]
  · rw [List.mem_flatMap]
    constructor
    · rintro ⟨hp, hq⟩
      exact ⟨e.1, hp, List.mem_map.2 ⟨e.2, hq, rfl⟩⟩
    · rintro ⟨p, hp, he⟩
      obtain ⟨q, hq, rfl⟩ := List.mem_map.1 he
      exact ⟨hp, hq⟩

/-! ### Sums -/

namespace Metrics

/-- How many dependencies some packages have together. -/
def totalCe (metrics : List PackageMetrics) : Nat := (metrics.map (·.ce)).sum

/-- How many dependents some packages have together. -/
def totalCa (metrics : List PackageMetrics) : Nat := (metrics.map (·.ca)).sum

end Metrics

namespace Graph

open Metrics (totalCe totalCa)

variable {g : Graph} {packages targets : List Text}

/-- The dependencies of a graph, from one package to another. -/
def dependencies (g : Graph) : Set (Text × Text) := {e | e.2 ∈ g.outgoing e.1}

theorem isFirsts_metrics (g : Graph) (packages : List Text) : IsFirsts packages ((g.metrics packages).map (·.package)) := by
  have hkeys : (g.metrics packages).map (·.package) = packages.eraseDups := by
    rw [metrics, Metrics.ofPackages, List.map_map]
    exact List.map_id _
  rw [hkeys]
  exact isFirsts_eraseDups packages

/-- What is measured for a package does not depend on what else is asked for. -/
theorem eq_of_mem_metrics {packages' : List Text} {m m' : PackageMetrics} (h : m ∈ g.metrics packages)
    (h' : m' ∈ g.metrics packages') (hpackage : m.package = m'.package) : m = m' := by
  obtain ⟨p, -, rfl⟩ := List.mem_map.1 h
  obtain ⟨p', -, rfl⟩ := List.mem_map.1 h'
  exact congrArg (Metrics.ofPackage Binary64.round g) hpackage

theorem totalCe_metrics (g : Graph) (packages : List Text) :
    (totalCe (g.metrics packages) : ℕ∞) = {e ∈ g.dependencies | e.1 ∈ packages}.encard := by
  have hset : {e ∈ g.dependencies | e.1 ∈ packages} = {e | e.1 ∈ packages.eraseDups ∧ e.2 ∈ g.outgoing e.1} := by
    ext e
    rw [Set.mem_ofPred_eq, Set.mem_ofPred_eq, List.mem_eraseDups, and_comm]
    rfl
  rw [hset, encard_pairs g.outgoing (isFirsts_eraseDups packages).nodup, totalCe, metrics, Metrics.ofPackages, List.map_map]
  rfl

theorem Consistent.totalCa_metrics (hg : g.Consistent) (packages : List Text) :
    (totalCa (g.metrics packages) : ℕ∞) = {e ∈ g.dependencies | e.2 ∈ packages}.encard := by
  have hset : {e ∈ g.dependencies | e.2 ∈ packages} =
      Set.preimage Prod.swap {e | e.1 ∈ packages.eraseDups ∧ e.2 ∈ g.incoming e.1} := by
    ext e
    rw [Set.mem_preimage, Set.mem_ofPred_eq, Set.mem_ofPred_eq, List.mem_eraseDups, and_comm]
    exact and_congr_right' (hg.mirror e.1 e.2)
  rw [hset, Set.encard_preimage_of_bijective Prod.swap_bijective,
    encard_pairs g.incoming (isFirsts_eraseDups packages).nodup, totalCa, metrics, Metrics.ofPackages, List.map_map]
  rfl

/-- For all target packages, asked for in whatever order, there are as many dependencies as dependents, and as many as the
graph has, if it is restricted to the targets. If it is not, the dependents are as many as the dependencies that lead to
targets, which may be fewer than all. In either case each package is measured once, in the order of first occurrence, and
the numbers for a package depend on nothing but the graph. -/
theorem couplings_balance (hpackages : ∀ p, p ∈ packages ↔ p ∈ targets) (classes : List (ClassSummary × List Text)) :
    (∀ restricted, IsFirsts packages (((recorded restricted targets classes).metrics packages).map (·.package))) ∧
    (totalCe ((recorded true targets classes).metrics packages) =
        totalCa ((recorded true targets classes).metrics packages) ∧
      (totalCe ((recorded true targets classes).metrics packages) : ℕ∞) =
        (recorded true targets classes).dependencies.encard) ∧
    ((totalCa ((recorded false targets classes).metrics packages) : ℕ∞) =
        {e ∈ (recorded false targets classes).dependencies | e.2 ∈ targets}.encard ∧
      totalCa ((recorded false targets classes).metrics packages) ≤
        totalCe ((recorded false targets classes).metrics packages)) ∧
    ∀ (restricted : Bool) (packages' : List Text), ∀ m ∈ (recorded restricted targets classes).metrics packages,
      ∀ m' ∈ (recorded restricted targets classes).metrics packages', m.package = m'.package → m = m' := by
  have hconsistent (restricted : Bool) := consistent_recorded restricted targets classes
  have hsource (restricted : Bool) : {e ∈ (recorded restricted targets classes).dependencies | e.1 ∈ packages} =
      (recorded restricted targets classes).dependencies :=
    Set.sep_eq_self_iff_mem_true.2 fun e he => (hpackages e.1).2 (mem_outgoing_recorded.1 he).1
  refine ⟨fun restricted => isFirsts_metrics _ packages, ?_, ?_, fun _ _ _ h _ h' => eq_of_mem_metrics h h'⟩
  · have htarget : {e ∈ (recorded true targets classes).dependencies | e.2 ∈ packages} =
        (recorded true targets classes).dependencies :=
      Set.sep_eq_self_iff_mem_true.2 fun e he =>
        (hpackages e.2).2 ((mem_outgoing_recorded.1 he).2.1.resolve_right Bool.noConfusion)
    have hce := totalCe_metrics (recorded true targets classes) packages
    have hca := (hconsistent true).totalCa_metrics packages
    rw [hsource] at hce
    rw [htarget] at hca
    exact ⟨Nat.cast_injective (hce.trans hca.symm), hce⟩
  · have hce := totalCe_metrics (recorded false targets classes) packages
    have hca := (hconsistent false).totalCa_metrics packages
    rw [hsource] at hce
    simp only [hpackages] at hca
    refine ⟨hca, ?_⟩
    rw [← Nat.cast_le (α := ℕ∞), hca, hce]
    exact Set.encard_le_encard (Set.sep_subset _ _)

theorem couplings_balance_sample : (∀ p, p ∈ (["b", "a", "b", "c"] : List Text) ↔ p ∈ (["a", "b", "c"] : List Text)) ∧
    (totalCe ((recorded true ["a", "b", "c"] sampleClasses).metrics ["b", "a", "b", "c"]) : ℕ∞) =
      (recorded true ["a", "b", "c"] sampleClasses).dependencies.encard ∧
    totalCa ((recorded false ["a", "b", "c"] sampleClasses).metrics ["b", "a", "b", "c"]) ≤
      totalCe ((recorded false ["a", "b", "c"] sampleClasses).metrics ["b", "a", "b", "c"]) := by
  have hpackages : ∀ p, p ∈ (["b", "a", "b", "c"] : List Text) ↔ p ∈ (["a", "b", "c"] : List Text) := by
    intro p
    simp only [List.mem_cons, List.not_mem_nil, or_false]
    tauto
  obtain ⟨-, ⟨-, hrestricted⟩, ⟨-, hunrestricted⟩, -⟩ := couplings_balance hpackages sampleClasses
  exact ⟨hpackages, hrestricted, hunrestricted⟩

end Graph

end Coupling
