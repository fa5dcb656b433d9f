import Coupling.Proofs.DepthFirst
import Mathlib.Data.List.Nodup

/-!
# What can be reached

The cycles of a graph are the classes of packages that can be reached from each other along dependencies between sources,
if there are two of them or more. So nothing matters for the cycles but the sources and the dependencies between sources.
-/

namespace Coupling.Adjacency

/-! ### Dependencies between sources -/

variable {edges edges' : Adjacency} {v w : Text}

/-- A dependency of a source on a source. -/
def Links (edges : Adjacency) (v w : Text) : Prop := w ∈ edges.keys ∧ ∃ ws, (v, ws) ∈ edges ∧ w ∈ ws

/-- A way along such dependencies. -/
def Reaches (edges : Adjacency) : Text → Text → Prop := Relation.ReflTransGen edges.Links

/-- A way there and a way back. -/
def Mutual (edges : Adjacency) (v w : Text) : Prop := edges.Reaches v w ∧ edges.Reaches w v

theorem mem_keys : v ∈ edges.keys ↔ ∃ ws, (v, ws) ∈ edges := by
  simp [keys]

theorem Reaches.mem_keys (h : edges.Reaches v w) (hv : v ∈ edges.keys) : w ∈ edges.keys := by
  induction h with
  | refl => exact hv
  | tail _ hlink _ => exact hlink.1

/-! ### The index -/

/-- The index gives the sources that a source depends on. -/
theorem getD_index (h : edges.keys.Nodup) {ws : List Text} (hv : (v, ws) ∈ edges) :
    edges.index.getD v [] = (ws.filter (Std.HashSet.ofList edges.keys).contains).mergeSort := by
  have hdistinct : (edges.map fun e => (e.1, (e.2.filter (Std.HashSet.ofList edges.keys).contains).mergeSort)).Pairwise
      fun a b => (a.1 == b.1) = false := by
    rw [List.pairwise_map]
    exact (List.pairwise_map.1 h).imp fun hne => beq_false_of_ne hne
  exact Std.HashMap.getD_ofList_of_mem BEq.rfl hdistinct (List.mem_map.2 ⟨_, hv, rfl⟩)

theorem getD_index_of_not_mem (hv : v ∉ edges.keys) : edges.index.getD v [] = [] := by
  unfold index
  refine Std.HashMap.getD_ofList_of_contains_eq_false ?_
  simpa [keys] using hv

theorem mem_getD_index (h : edges.keys.Nodup) : w ∈ edges.index.getD v [] ↔ edges.Links v w := by
  by_cases hv : v ∈ edges.keys
  · obtain ⟨ws, hws⟩ := mem_keys.1 hv
    rw [getD_index h hws, List.mem_mergeSort, List.mem_filter, Std.HashSet.contains_ofList, List.contains_iff_mem]
    constructor
    · rintro ⟨hw, hkey⟩
      exact ⟨hkey, ws, hws, hw⟩
    · rintro ⟨hkey, ws', hws', hw⟩
      cases List.inj_on_of_nodup_map h hws hws' rfl
      exact ⟨hw, hkey⟩
  · rw [getD_index_of_not_mem hv]
    refine iff_of_false List.not_mem_nil ?_
    rintro ⟨-, ws, hws, -⟩
    exact hv (mem_keys.2 ⟨ws, hws⟩)

theorem forall_mem_insertMany {P : Text → Prop} {entries : Adjacency} (hentries : ∀ e ∈ entries, ∀ w ∈ e.2, P w)
    {index : Std.HashMap Text (List Text)} (hindex : ∀ v, ∀ w ∈ index.getD v [], P w) :
    ∀ v, ∀ w ∈ (index.insertMany entries).getD v [], P w := by
  induction entries generalizing index with
  | nil => simpa using hindex
  | cons e entries ih =>
    obtain ⟨he, hentries⟩ := List.forall_mem_cons.1 hentries
    rw [Std.HashMap.insertMany_cons]
    refine ih hentries fun v w hw => ?_
    rw [Std.HashMap.getD_insert] at hw
    split at hw
    · exact he w hw
    · exact hindex v w hw

/-- Steps by the index stay among the sources. -/
theorem mem_keys_of_mem_index (hw : w ∈ edges.index.getD v []) : v ∈ edges.keys ∧ w ∈ edges.keys := by
  constructor
  · by_contra hv
    rw [getD_index_of_not_mem hv] at hw
    cases hw
  · rw [index, Std.HashMap.ofList_eq_insertMany_empty] at hw
    refine forall_mem_insertMany (fun e he u hu => ?_) (by simp) v w hw
    obtain ⟨e, -, rfl⟩ := List.mem_map.1 he
    rw [List.mem_mergeSort, List.mem_filter, Std.HashSet.contains_ofList, List.contains_iff_mem] at hu
    exact hu.2

/-! ### Cycles -/

theorem mem_sources_of_mem_index (hw : w ∈ edges.index.getD v []) :
    v ∈ edges.keys.mergeSort ∧ w ∈ edges.keys.mergeSort := by
  rw [List.mem_mergeSort, List.mem_mergeSort]
  exact mem_keys_of_mem_index hw

theorem steps_index (h : edges.keys.Nodup) : Search.Steps (edges.index.getD · []) = edges.Links :=
  funext₂ fun _ _ => propext (mem_getD_index h)

/-- The cycles are the classes of packages that can be reached from each other and are not alone, in order. -/
theorem mem_cycles (h : edges.keys.Nodup) {c : List Text} : c ∈ edges.cycles ↔
    2 ≤ c.length ∧ c.Pairwise (· < ·) ∧ ∃ v ∈ edges.keys, ∀ w, w ∈ c ↔ edges.Mutual v w := by
  have hcycle : c ∈ edges.cycles ↔ IsCycle edges.Links c := by
    rw [cycles, List.mem_mergeSort, Search.mem_classes_run fun _ _ => mem_sources_of_mem_index, steps_index h]
  rw [hcycle]
  constructor
  · intro hc
    obtain ⟨v, hv⟩ := hc.isClass
    obtain ⟨w, -, ws, hws, -⟩ := hc.exists_next ((hv v).2 ⟨.refl, .refl⟩)
    exact ⟨hc.two_le, hc.increasing, v, mem_keys.2 ⟨ws, hws⟩, hv⟩
  · rintro ⟨htwo, hincreasing, v, -, hv⟩
    exact ⟨htwo, hincreasing, v, hv⟩

theorem exists_mem_cycles (h : edges.keys.Nodup) (hv : v ∈ edges.keys) (hne : v ≠ w) (hmutual : edges.Mutual v w) :
    ∃ c ∈ edges.cycles, v ∈ c := by
  rw [Mutual, Reaches, ← steps_index h] at hmutual
  obtain ⟨c, hc, hvc⟩ := Search.exists_mem_classes_run (fun _ _ _ hw => (mem_sources_of_mem_index hw).2)
    (List.mem_mergeSort.2 hv) hne hmutual.1 hmutual.2
  exact ⟨c, List.mem_mergeSort.2 hc, hvc⟩

theorem cycles_increasing (edges : Adjacency) : edges.cycles.Pairwise (· < ·) :=
  increasing_mergeSort (Search.nodup_classes_run fun _ _ _ hw => (mem_sources_of_mem_index hw).2)

theorem cycles_disjoint (edges : Adjacency) : edges.cycles.Pairwise List.Disjoint := by
  rw [cycles, (List.mergeSort_perm _ _).pairwise_iff List.disjoint_symm]
  exact Search.disjoint_classes_run fun _ _ _ hw => (mem_sources_of_mem_index hw).2

/-- Nothing matters for the cycles but the sources and the dependencies between them. -/
theorem cycles_eq_of_links (h : edges.keys.Nodup) (h' : edges'.keys.Nodup)
    (hkeys : ∀ v, v ∈ edges.keys ↔ v ∈ edges'.keys) (hlinks : ∀ v w, edges.Links v w ↔ edges'.Links v w) :
    edges.cycles = edges'.cycles := by
  have hrel : edges.Links = edges'.Links := funext₂ fun v w => propext (hlinks v w)
  refine SortedSet.eq_of_increasing edges.cycles_increasing edges'.cycles_increasing fun c => ?_
  rw [mem_cycles h, mem_cycles h']
  simp only [hkeys, Mutual, Reaches, hrel]

/-- The cycles are exactly the classes of two or more packages that can be reached from each other along dependencies
between sources. Each is listed once and in order, and so are they all. They share no packages, and nothing is in them but
the sources from which a way leads to another package and back. -/
theorem cycles_exact (h : edges.keys.Nodup) :
    (∀ c, c ∈ edges.cycles ↔ 2 ≤ c.length ∧ c.Pairwise (· < ·) ∧ ∃ v ∈ edges.keys, ∀ w, w ∈ c ↔ edges.Mutual v w) ∧
    edges.cycles.Pairwise (· < ·) ∧ edges.cycles.Pairwise List.Disjoint ∧
    ∀ v, (∃ c ∈ edges.cycles, v ∈ c) ↔ v ∈ edges.keys ∧ ∃ w ≠ v, edges.Mutual v w := by
  refine ⟨fun c => mem_cycles h, edges.cycles_increasing, edges.cycles_disjoint, fun v => ⟨?_, ?_⟩⟩
  · rintro ⟨c, hc, hv⟩
    obtain ⟨htwo, hincreasing, u, hu, hclass⟩ := (mem_cycles h).1 hc
    have hcycle : IsCycle edges.Links c := ⟨htwo, hincreasing, u, hclass⟩
    obtain ⟨w, hw, hne⟩ := hcycle.exists_ne v
    exact ⟨((hclass v).1 hv).1.mem_keys hu, w, hne, hcycle.reaches hv hw, hcycle.reaches hw hv⟩
  · rintro ⟨hv, w, hne, hmutual⟩
    exact exists_mem_cycles h hv hne.symm hmutual

/-- Dependencies with a repetition, one of a package on itself, and one on a package that is no source. -/
def sampleEdges : Adjacency := [("b", ["c", "a", "a"]), ("a", ["b", "x"]), ("c", ["c"])]

theorem cycles_exact_sample : sampleEdges.keys.Nodup ∧
    (∀ c, c ∈ sampleEdges.cycles ↔
      2 ≤ c.length ∧ c.Pairwise (· < ·) ∧ ∃ v ∈ sampleEdges.keys, ∀ w, w ∈ c ↔ sampleEdges.Mutual v w) ∧
    sampleEdges.cycles.Pairwise (· < ·) ∧ sampleEdges.cycles.Pairwise List.Disjoint ∧
    ∀ v, (∃ c ∈ sampleEdges.cycles, v ∈ c) ↔ v ∈ sampleEdges.keys ∧ ∃ w ≠ v, sampleEdges.Mutual v w :=
  have h : sampleEdges.keys.Nodup := by decide
  ⟨h, cycles_exact h⟩

end Coupling.Adjacency
