import Coupling.Metrics
import Coupling.Proofs.Contents
import Coupling.Proofs.Reaching

/-!
# Graphs for different target packages

What the graph of some classes holds for a package is told by the classes of the package and by the types they refer to,
cut down to the target packages. So the graph for some targets is the part at these targets of the graph for more targets.
And whether dependencies that leave the targets are kept matters for the outgoing side only: not for the classes counted, nor
for what comes in from other targets, nor for the cycles.
-/

namespace Coupling.Graph

variable {restricted : Bool} {targets targets' : List Text} {classes : List (ClassSummary × List Text)} {p q : Text}

/-! ### What is recorded for targets -/

/-- Some class of the package `p` refers to a type of the package `q`, which is another one. -/
def Refers (classes : List (ClassSummary × List Text)) (p q : Text) : Prop :=
  q ≠ p ∧ ∃ c ∈ classes, c.1.package = p ∧ ∃ t ∈ c.2, TypeName.package t = q

/-- Of the classes of a target package, none is left out. -/
theorem countP_ofClass {f : Call → Bool} (hf : ∀ k, f k = true → k.package ∈ targets) :
    (classes.map (Call.ofClass targets)).countP (fun k => k.isKept && f k) =
      classes.countP fun c => f (Call.ofClass targets c) := by
  rw [List.countP_map]
  refine List.countP_congr fun c _ => ?_
  show ((Call.ofClass targets c).isKept && f (Call.ofClass targets c)) = true ↔ f (Call.ofClass targets c) = true
  rw [Bool.and_eq_true]
  exact and_iff_right_of_imp fun hc => List.contains_iff_mem.2 (hf _ hc)

theorem total_recorded (hp : p ∈ targets) : ((recorded restricted targets classes).node p).total =
    classes.countP fun c => c.1.package = p := by
  rw [recorded_eq, total_recordCalls, countP_ofClass fun k hk => of_decide_eq_true hk ▸ hp]
  exact Nat.zero_add _

theorem abstract_recorded (hp : p ∈ targets) : ((recorded restricted targets classes).node p).abstract =
    classes.countP fun c => c.1.package = p && c.1.isAbstract := by
  rw [recorded_eq, abstract_recordCalls,
    countP_ofClass fun k hk => of_decide_eq_true (Bool.and_eq_true_iff.1 hk).1 ▸ hp]
  exact Nat.zero_add _

theorem exists_call_iff :
    (∃ k ∈ classes.map (Call.ofClass targets), k.isKept = true ∧ k.package = p ∧ k.DependsOn restricted q) ↔
      p ∈ targets ∧ (q ∈ targets ∨ restricted = false) ∧ Refers classes p q := by
  simp only [List.mem_map, Call.isKept, List.contains_iff_mem]
  constructor
  · rintro ⟨_, ⟨c, hc, rfl⟩, hkept, rfl, hreferences, hne, htarget⟩
    exact ⟨hkept, htarget, hne, c, hc, rfl, hreferences⟩
  · rintro ⟨hp, htarget, hne, c, hc, rfl, hreferences⟩
    exact ⟨_, ⟨c, hc, rfl⟩, hp, rfl, hreferences, hne, htarget⟩

theorem mem_outgoing_recorded : q ∈ (recorded restricted targets classes).outgoing p ↔
    p ∈ targets ∧ (q ∈ targets ∨ restricted = false) ∧ Refers classes p q := by
  rw [recorded_eq, mem_outgoing_recordCalls, exists_call_iff]
  exact or_iff_right (not_mem_outgoing_empty restricted p q)

theorem mem_incoming_recorded : p ∈ (recorded restricted targets classes).incoming q ↔
    p ∈ targets ∧ (q ∈ targets ∨ restricted = false) ∧ Refers classes p q := by
  rw [← (consistent_recorded restricted targets classes).mirror, mem_outgoing_recorded]

theorem mem_packages_recorded : p ∈ (recorded restricted targets classes).packages ↔
    p ∈ targets ∧ ∃ c ∈ classes, c.1.package = p := by
  have hconsistent := consistent_recorded restricted targets classes
  rw [hconsistent.mem_packages_iff]
  constructor
  · rintro (htotal | houtgoing)
    · rw [recorded_eq, total_recordCalls] at htotal
      obtain ⟨k, hk, hcounts⟩ := List.countP_pos_iff.1 (Nat.zero_add _ ▸ htotal)
      obtain ⟨c, hc, rfl⟩ := List.mem_map.1 hk
      obtain ⟨hkept, hpackage⟩ := Bool.and_eq_true_iff.1 hcounts
      obtain rfl := of_decide_eq_true hpackage
      exact ⟨List.contains_iff_mem.1 hkept, c, hc, rfl⟩
    · -- A class that depends on something is a class.
      by_contra hnone
      refine houtgoing (SortedSet.ext fun q => iff_of_false (fun hq => ?_) (SortedSet.not_mem_empty q))
      obtain ⟨hp, -, -, c, hc, hpackage, -⟩ := mem_outgoing_recorded.1 hq
      exact hnone ⟨hp, c, hc, hpackage⟩
  · rintro ⟨hp, c, hc, hpackage⟩
    left
    rw [total_recorded hp, List.countP_pos_iff]
    exact ⟨c, hc, decide_eq_true hpackage⟩

theorem keys_edges (g : Graph) : Adjacency.keys g.edges = g.packages := g.map_fst_edges

theorem links_edges {g : Graph} : Adjacency.Links g.edges p q ↔ p ∈ g.packages ∧ q ∈ g.packages ∧ q ∈ g.outgoing p := by
  unfold Adjacency.Links
  rw [keys_edges]
  constructor
  · rintro ⟨hq, ws, hmem, hws⟩
    obtain ⟨p', hp', heq⟩ := List.mem_map.1 hmem
    cases heq
    exact ⟨hp', hq, hws⟩
  · rintro ⟨hp, hq, hout⟩
    exact ⟨hq, _, List.mem_map.2 ⟨p, hp, rfl⟩, hout⟩

/-! ### Fewer and more targets -/

/-- One graph is the part of another at some packages. -/
structure IsPart (targets : List Text) (g g' : Graph) : Prop where
  total : ∀ p ∈ targets, (g.node p).total = (g'.node p).total
  abstract : ∀ p ∈ targets, (g.node p).abstract = (g'.node p).abstract
  outgoing : ∀ p ∈ targets, ∀ q ∈ targets, q ∈ g.outgoing p ↔ q ∈ g'.outgoing p
  incoming : ∀ p ∈ targets, g.incoming p = (g'.incoming p).filter targets.contains

theorem isPart_recorded (h : ∀ p ∈ targets, p ∈ targets') (restricted : Bool) (classes : List (ClassSummary × List Text)) :
    IsPart targets (recorded true targets classes) (recorded restricted targets' classes) where
  total p hp := by rw [total_recorded hp, total_recorded (h p hp)]
  abstract p hp := by rw [abstract_recorded hp, abstract_recorded (h p hp)]
  outgoing p hp q hq := by
    simp only [mem_outgoing_recorded, hp, h p hp, hq, h q hq, true_or, true_and]
  incoming p hp := SortedSet.ext fun q => by
    rw [SortedSet.mem_filter, mem_incoming_recorded, mem_incoming_recorded, List.contains_iff_mem]
    constructor
    · rintro ⟨hq, -, hrefers⟩
      exact ⟨⟨h q hq, .inl (h p hp), hrefers⟩, hq⟩
    · rintro ⟨⟨-, -, hrefers⟩, hq⟩
      exact ⟨hq, .inl hp, hrefers⟩

/-- Two graphs differ at most in dependencies that leave some packages, which the second one may have besides. -/
structure DiffersOutward (targets : List Text) (g g' : Graph) : Prop where
  incoming : ∀ p ∈ targets, g.incoming p = g'.incoming p
  outgoing : ∀ p, g.outgoing p = (g'.outgoing p).filter targets.contains
  metrics : ∀ round, ∀ p ∈ targets,
    (Metrics.ofPackage round g p).ca = (Metrics.ofPackage round g' p).ca ∧
    (Metrics.ofPackage round g p).total = (Metrics.ofPackage round g' p).total ∧
    (Metrics.ofPackage round g p).abstract = (Metrics.ofPackage round g' p).abstract
  packages : g.packages = g'.packages
  cycles : Adjacency.cycles g.edges = Adjacency.cycles g'.edges

theorem packages_recorded (restricted restricted' : Bool) (targets : List Text)
    (classes : List (ClassSummary × List Text)) :
    (recorded restricted targets classes).packages = (recorded restricted' targets classes).packages :=
  SortedSet.eq_of_increasing (packages_increasing _) (packages_increasing _) fun p => by
    rw [mem_packages_recorded, mem_packages_recorded]

/-- Dependencies that leave the targets lead to no source, so no cycle goes along them. -/
theorem cycles_recorded (restricted restricted' : Bool) (targets : List Text)
    (classes : List (ClassSummary × List Text)) :
    Adjacency.cycles (recorded restricted targets classes).edges =
      Adjacency.cycles (recorded restricted' targets classes).edges := by
  have hpackages := packages_recorded restricted restricted' targets classes
  refine Adjacency.cycles_eq_of_links ?_ ?_ (fun p => ?_) (fun p q => ?_)
  · rw [keys_edges]
    exact nodup_packages _
  · rw [keys_edges]
    exact nodup_packages _
  · rw [keys_edges, keys_edges, hpackages]
  · rw [links_edges, links_edges, hpackages]
    refine and_congr_right fun _ => and_congr_right fun hq => ?_
    have htarget : q ∈ targets := (mem_packages_recorded.1 hq).1
    simp only [mem_outgoing_recorded, htarget, true_or]

theorem differsOutward_recorded (targets : List Text) (classes : List (ClassSummary × List Text)) :
    DiffersOutward targets (recorded true targets classes) (recorded false targets classes) := by
  have hincoming (p : Text) (hp : p ∈ targets) :
      (recorded true targets classes).incoming p = (recorded false targets classes).incoming p :=
    SortedSet.ext fun q => by simp only [mem_incoming_recorded, hp, true_or]
  refine ⟨hincoming, fun p => SortedSet.ext fun q => ?_, fun round p hp => ⟨?_, ?_, ?_⟩, ?_, ?_⟩
  · rw [SortedSet.mem_filter, mem_outgoing_recorded, mem_outgoing_recorded, List.contains_iff_mem]
    constructor
    · rintro ⟨hp, hq | hq, hrefers⟩
      · exact ⟨⟨hp, .inl hq, hrefers⟩, hq⟩
      · cases hq
    · rintro ⟨⟨hp, -, hrefers⟩, hq⟩
      exact ⟨hp, .inl hq, hrefers⟩
  · exact congrArg SortedSet.size (hincoming p hp)
  · exact (total_recorded hp).trans (total_recorded hp).symm
  · exact (abstract_recorded hp).trans (abstract_recorded hp).symm
  · exact packages_recorded true false targets classes
  · exact cycles_recorded true false targets classes

/-- The graph for some targets is the part at these targets of the graph for more targets, whether or not that one is
restricted. And a graph that is not restricted has, for the same targets, the same classes, the same dependents, the same
packages and the same cycles: only what the targets depend on may be more. -/
theorem recorded_targets (h : ∀ p ∈ targets, p ∈ targets') (restricted : Bool) (classes : List (ClassSummary × List Text)) :
    IsPart targets (recorded true targets classes) (recorded restricted targets' classes) ∧
      DiffersOutward targets (recorded true targets classes) (recorded false targets classes) :=
  ⟨isPart_recorded h restricted classes, differsOutward_recorded targets classes⟩

/-- Three classes that depend on each other's packages, and one of them on a library. -/
def sampleClasses : List (ClassSummary × List Text) :=
  [({ name := "a.A", flags := 0 }, ["b.B", "lib.L"]), ({ name := "b.B", flags := 0x200 }, ["a.A", "c.C"]),
    ({ name := "c.C", flags := 0 }, ["a.A"])]

theorem recorded_targets_sample : (∀ p ∈ (["a", "b"] : List Text), p ∈ (["c", "b", "a"] : List Text)) ∧
    IsPart ["a", "b"] (recorded true ["a", "b"] sampleClasses) (recorded false ["c", "b", "a"] sampleClasses) ∧
    DiffersOutward ["a", "b"] (recorded true ["a", "b"] sampleClasses) (recorded false ["a", "b"] sampleClasses) := by
  have htargets : ∀ p ∈ (["a", "b"] : List Text), p ∈ (["c", "b", "a"] : List Text) := by simp
  exact ⟨htargets, recorded_targets htargets false sampleClasses⟩

end Coupling.Graph
