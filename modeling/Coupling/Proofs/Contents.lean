import Coupling.Proofs.Recording
import Mathlib.Algebra.BigOperators.Group.List.Basic

/-!
# What a graph holds

What a graph holds comes down to the number of classes and of abstract classes of each package, and to the dependencies
between packages. Contents can be added, and everything that is done to a graph adds a content to it: recording a class,
adding a dependency, and merging with another graph, which adds all that the other one holds. Added dependencies are
entered on both sides, so a graph that starts empty holds the same dependencies at their sources and at their targets.
-/

namespace Coupling

/-- Numbers of classes and dependencies. -/
@[ext]
structure Content where
  /-- How many classes each package has. -/
  total : Text → Nat
  /-- How many of them are abstract. -/
  abstract : Text → Nat
  /-- Which package depends on which. -/
  depends : Text → Text → Prop

namespace Content

instance : Zero Content := ⟨⟨fun _ => 0, fun _ => 0, fun _ _ => False⟩⟩

instance : Add Content :=
  ⟨fun c d => ⟨fun p => c.total p + d.total p, fun p => c.abstract p + d.abstract p,
    fun p q => c.depends p q ∨ d.depends p q⟩⟩

variable (c d : Content) (p q : Text)

@[simp] theorem total_zero : (0 : Content).total p = 0 := rfl

@[simp] theorem abstract_zero : (0 : Content).abstract p = 0 := rfl

@[simp] theorem depends_zero : (0 : Content).depends p q ↔ False := Iff.rfl

@[simp] theorem total_add : (c + d).total p = c.total p + d.total p := rfl

@[simp] theorem abstract_add : (c + d).abstract p = c.abstract p + d.abstract p := rfl

@[simp] theorem depends_add : (c + d).depends p q ↔ c.depends p q ∨ d.depends p q := Iff.rfl

instance : AddCommMonoid Content where
  add_assoc c d e := by ext <;> simp [Nat.add_assoc, or_assoc]
  zero_add c := by ext <;> simp
  add_zero c := by ext <;> simp
  add_comm c d := by ext <;> simp [Nat.add_comm, or_comm]
  nsmul := nsmulRec

/-- No package depends on itself, and none has more abstract classes than classes. -/
structure IsSound : Prop where
  irrefl : ∀ p, ¬c.depends p p
  abstract_le : ∀ p, c.abstract p ≤ c.total p

theorem isSound_zero : IsSound 0 := ⟨fun _ => id, fun _ => Nat.le_refl 0⟩

/-- The part of a content at some packages. -/
def within (sources : List Text) : Content where
  total p := if p ∈ sources then c.total p else 0
  abstract p := if p ∈ sources then c.abstract p else 0
  depends p q := p ∈ sources ∧ c.depends p q

/-- A content without its dependencies. -/
def counts : Content := ⟨c.total, c.abstract, fun _ _ => False⟩

/-- Different packages hold parts that add up. -/
theorem sum_within {sources : List Text} (h : sources.Nodup) :
    (sources.map fun p => c.within [p]).sum = c.within sources := by
  induction sources with
  | nil => ext <;> simp [within]
  | cons s sources ih =>
    rw [List.nodup_cons] at h
    rw [List.map_cons, List.sum_cons, ih h.2]
    ext p q
    · by_cases hp : p = s
      · simp [within, hp, h.1]
      · simp [within, hp]
    · by_cases hp : p = s
      · simp [within, hp, h.1]
      · simp [within, hp]
    · simp [within, or_and_right]

/-- A content that lies at some packages is the part at these packages. -/
theorem within_eq_self {sources : List Text} (htotal : ∀ p, p ∉ sources → c.total p = 0)
    (habstract : ∀ p, p ∉ sources → c.abstract p = 0) (hdepends : ∀ p q, c.depends p q → p ∈ sources) :
    c.within sources = c := by
  ext p q
  · by_cases hp : p ∈ sources
    · exact if_pos hp
    · exact (if_neg hp).trans (htotal p hp).symm
  · by_cases hp : p ∈ sources
    · exact if_pos hp
    · exact (if_neg hp).trans (habstract p hp).symm
  · exact and_iff_right_of_imp (hdepends p q)

end Content

namespace Graph

/-- What a graph holds. -/
def content (g : Graph) : Content where
  total p := (g.node p).total
  abstract p := (g.node p).abstract
  depends p q := q ∈ g.outgoing p

/-- Each package has one entry, every dependency is entered on both sides, no package depends on itself, and none has
more abstract classes than classes. -/
structure Consistent (g : Graph) : Prop where
  isMap : g.IsMap
  mirror : ∀ p q, q ∈ g.outgoing p ↔ p ∈ g.incoming q
  irrefl : ∀ p, p ∉ g.outgoing p
  abstract_le : ∀ p, (g.node p).abstract ≤ (g.node p).total

variable {g g' g'' h : Graph} {c d : Content} {p q s t : Text}

/-! ### Consistent graphs -/

theorem packages_increasing (g : Graph) : g.packages.Pairwise (· < ·) := SortedSet.increasing _

theorem nodup_packages (g : Graph) : g.packages.Nodup := g.packages_increasing.imp Std.ne_of_lt

theorem map_fst_edges (g : Graph) : g.edges.map Prod.fst = g.packages := by
  simp [edges, Function.comp_def]

theorem content_empty (restricted : Bool) : content { restricted } = 0 := by
  ext p q
  · rfl
  · rfl
  · exact iff_false_intro (not_mem_outgoing_empty restricted p q)

theorem consistent_empty (restricted : Bool) : Consistent { restricted } where
  isMap := isMap_empty restricted
  mirror p q := iff_of_false (not_mem_outgoing_empty restricted p q) (not_mem_incoming_empty restricted q p)
  irrefl p := not_mem_outgoing_empty restricted p p
  abstract_le _ := Nat.le_refl 0

namespace Consistent

theorem isSound_content (hg : g.Consistent) : g.content.IsSound := ⟨hg.irrefl, hg.abstract_le⟩

theorem not_mem_incoming_self (hg : g.Consistent) (p : Text) : p ∉ g.incoming p :=
  fun hp => hg.irrefl p ((hg.mirror p p).2 hp)

theorem mem_packages_iff (hg : g.Consistent) : p ∈ g.packages ↔ 0 < (g.node p).total ∨ g.outgoing p ≠ ∅ := by
  have hempty : (g.node p).outgoing.toList = [] ↔ g.outgoing p = ∅ := by
    constructor
    · intro hnil
      exact SortedSet.ext fun q => by rw [← SortedSet.mem_toList, outgoing, hnil]; simp
    · intro h
      exact congrArg SortedSet.toList h
  rw [mem_packages hg.isMap, Node.isActive, Bool.or_eq_true, decide_eq_true_iff, Nat.pos_iff_ne_zero]
  simp [hempty]

/-- Nothing is held outside the packages. -/
theorem content_within_packages (hg : g.Consistent) : g.content.within g.packages = g.content := by
  have htotal (p : Text) (hp : p ∉ g.packages) : (g.node p).total = 0 := by
    rw [hg.mem_packages_iff, not_or] at hp
    exact Nat.eq_zero_of_not_pos hp.1
  refine Content.within_eq_self _ htotal (fun p hp => ?_) (fun p q hq => ?_)
  · exact Nat.le_zero.1 (htotal p hp ▸ hg.abstract_le p)
  · refine hg.mem_packages_iff.2 (.inr fun hnone => ?_)
    exact SortedSet.not_mem_empty q (hnone ▸ hq)

/-- Consistent graphs that hold the same give the same answers. -/
theorem alike (hg : g.Consistent) (hg' : g'.Consistent) (h : g.content = g'.content) : g.Alike g' := by
  have hout (p q : Text) : q ∈ g.outgoing p ↔ q ∈ g'.outgoing p := iff_of_eq (congrFun₂ (congrArg Content.depends h) p q)
  refine alike_of_node hg.isMap hg'.isMap fun p => node_eq_of_observers ?_ ?_ (hout p) fun q => ?_
  · exact congrFun (congrArg Content.total h) p
  · exact congrFun (congrArg Content.abstract h) p
  · rw [← hg.mirror, hout, hg'.mirror]

end Consistent

/-! ### Additions -/

/-- A graph becomes another one by the addition of a content. -/
structure Grows (g : Graph) (c : Content) (g' : Graph) : Prop where
  restricted : g'.restricted = g.restricted
  isMap : g.IsMap → g'.IsMap
  content : g'.content = g.content + c
  incoming : ∀ p q, p ∈ g'.incoming q ↔ p ∈ g.incoming q ∨ c.depends p q

namespace Grows

theorem refl (g : Graph) : g.Grows 0 g :=
  ⟨rfl, id, (add_zero g.content).symm, fun _ _ => (or_iff_left id).symm⟩

theorem trans (hg : g.Grows c g') (hg' : g'.Grows d g'') : g.Grows (c + d) g'' where
  restricted := hg'.restricted.trans hg.restricted
  isMap hmap := hg'.isMap (hg.isMap hmap)
  content := by rw [hg'.content, hg.content, add_assoc]
  incoming p q := by rw [hg'.incoming, hg.incoming, or_assoc, Content.depends_add]

/-- What the rounds of a loop add adds up. -/
theorem foldl {α : Type} {f : Graph → α → Graph} {c : α → Content}
    (hf : ∀ (g' : Graph) a, g'.restricted = g.restricted → g'.Grows (c a) (f g' a)) (items : List α) :
    g.Grows (items.map c).sum (items.foldl f g) := by
  induction items generalizing g with
  | nil => exact refl g
  | cons a items ih =>
    rw [List.map_cons, List.sum_cons, List.foldl_cons]
    have hfirst := hf g a rfl
    exact hfirst.trans (ih fun g' b hg' => hf g' b (hg'.trans hfirst.restricted))

theorem total_eq (hg : g.Grows c g') (p : Text) : (g'.node p).total = (g.node p).total + c.total p :=
  congrFun (congrArg Content.total hg.content) p

theorem abstract_eq (hg : g.Grows c g') (p : Text) : (g'.node p).abstract = (g.node p).abstract + c.abstract p :=
  congrFun (congrArg Content.abstract hg.content) p

theorem mem_outgoing (hg : g.Grows c g') : q ∈ g'.outgoing p ↔ q ∈ g.outgoing p ∨ c.depends p q :=
  iff_of_eq (congrFun₂ (congrArg Content.depends hg.content) p q)

/-- A consistent graph stays consistent. -/
theorem consistent (hgrows : g.Grows c g') (hc : c.IsSound) (hg : g.Consistent) : g'.Consistent where
  isMap := hgrows.isMap hg.isMap
  mirror p q := by rw [hgrows.mem_outgoing, hgrows.incoming, hg.mirror]
  irrefl p hp := (hgrows.mem_outgoing.1 hp).elim (hg.irrefl p) (hc.irrefl p)
  abstract_le p := by
    rw [hgrows.total_eq, hgrows.abstract_eq]
    exact Nat.add_le_add (hg.abstract_le p) (hc.abstract_le p)

end Grows

/-! ### Recording -/

/-- What the recording of a class adds. -/
def Call.content (restricted : Bool) (k : Call) : Content where
  total p := if k.isKept && k.package = p then 1 else 0
  abstract p := if k.isKept && (k.package = p && k.owner.isAbstract) then 1 else 0
  depends p q := k.isKept = true ∧ k.package = p ∧ k.DependsOn restricted q

theorem Call.isSound_content (restricted : Bool) (k : Call) : (k.content restricted).IsSound where
  irrefl := fun p ⟨_, hpackage, _, hne, _⟩ => hne hpackage.symm
  abstract_le p := by
    dsimp only [Call.content]
    split
    · next habstract =>
      obtain ⟨hkept, hclass⟩ := Bool.and_eq_true_iff.1 habstract
      exact Nat.le_of_eq (if_pos (Bool.and_eq_true_iff.2 ⟨hkept, (Bool.and_eq_true_iff.1 hclass).1⟩)).symm
    · exact Nat.zero_le _

theorem grows_recordCall (g : Graph) (k : Call) : g.Grows (k.content g.restricted) (g.recordCall k) where
  restricted := by rw [recordCall_eq, restricted_run]
  isMap hmap := hmap.recordCalls [k]
  content := by
    ext p q
    · exact (total_recordCalls g [k] p).trans (congrArg _ List.countP_singleton)
    · exact (abstract_recordCalls g [k] p).trans (congrArg _ List.countP_singleton)
    · have hout : q ∈ ([k].foldl recordCall g).outgoing p ↔ _ := mem_outgoing_recordCalls
      exact hout.trans (or_congr_right (by simp only [List.mem_singleton, exists_eq_left, Call.content]))
  incoming p q := by
    have hin : p ∈ ([k].foldl recordCall g).incoming q ↔ _ := mem_incoming_recordCalls
    exact hin.trans (or_congr_right (by simp only [List.mem_singleton, exists_eq_left, Call.content]))

theorem Consistent.recordCall (hg : g.Consistent) (k : Call) : (g.recordCall k).Consistent :=
  (grows_recordCall g k).consistent (k.isSound_content _) hg

theorem Consistent.recordCalls (hg : g.Consistent) (calls : List Call) : (calls.foldl Graph.recordCall g).Consistent := by
  induction calls generalizing g with
  | nil => exact hg
  | cons k calls ih => exact ih (hg.recordCall k)

theorem consistent_recorded (restricted : Bool) (targets : List Text) (classes : List (ClassSummary × List Text)) :
    (recorded restricted targets classes).Consistent := by
  rw [recorded_eq]
  exact (consistent_empty restricted).recordCalls _

theorem grows_recordCalls (g : Graph) (calls : List Call) :
    g.Grows (calls.map (Call.content g.restricted)).sum (calls.foldl recordCall g) :=
  .foldl (fun g' k hg' => hg' ▸ grows_recordCall g' k) calls

/-! ### Single dependencies -/

/-- A single dependency, unless it would be on itself. -/
def edgeContent (source target : Text) : Content where
  total _ := 0
  abstract _ := 0
  depends p q := p = source ∧ q = target ∧ source ≠ target

theorem isSound_edgeContent (source target : Text) : (edgeContent source target).IsSound where
  irrefl := fun _ ⟨hs, ht, hne⟩ => hne (hs.symm.trans ht)
  abstract_le _ := Nat.le_refl 0

theorem node_addEdge {source target : Text} (g : Graph) (hne : source ≠ target) (p : Text) :
    (g.addEdge source target).node p =
      { outgoing := if p = source then (g.outgoing p).insert target else g.outgoing p
        incoming := if p = target then (g.incoming p).insert source else g.incoming p
        total := (g.node p).total
        abstract := (g.node p).abstract } := by
  rw [addEdge, if_neg hne, node_update, node_update, node_update, outgoing, incoming]
  by_cases hp : p = target
  · simp [hp, hne.symm]
  · by_cases hp' : p = source
    · simp [hp', hne]
    · simp [hp, hp']

theorem grows_addEdge (g : Graph) (source target : Text) :
    g.Grows (edgeContent source target) (g.addEdge source target) := by
  by_cases hne : source = target
  · have hnone : edgeContent source target = 0 := by
      ext p q
      · rfl
      · rfl
      · simp [edgeContent, hne]
    rw [addEdge, if_pos hne, hnone]
    exact .refl g
  · refine ⟨?_, fun hmap => ?_, ?_, fun p q => ?_⟩
    · rw [addEdge, if_neg hne]
      rfl
    · rw [addEdge, if_neg hne]
      exact (hmap.update _ _).update _ _
    · ext p q
      · show ((g.addEdge source target).node p).total = (g.node p).total
        rw [node_addEdge g hne]
      · show ((g.addEdge source target).node p).abstract = (g.node p).abstract
        rw [node_addEdge g hne]
      · simp only [content, outgoing, node_addEdge g hne]
        by_cases hp : p = source <;> simp [edgeContent, hp, hne, or_comm]
    · simp only [incoming, node_addEdge g hne]
      by_cases hq : q = target <;> simp [edgeContent, hq, hne, or_comm]

theorem Consistent.addEdge (hg : g.Consistent) (source target : Text) : (g.addEdge source target).Consistent :=
  (grows_addEdge g source target).consistent (isSound_edgeContent source target) hg

/-- Dependencies of a package on others. -/
theorem sum_edgeContent {source : Text} {targets : List Text} (h : source ∉ targets) :
    (targets.map (edgeContent source)).sum = ⟨fun _ => 0, fun _ => 0, fun p q => p = source ∧ q ∈ targets⟩ := by
  induction targets with
  | nil => ext <;> simp
  | cons target targets ih =>
    rw [List.mem_cons, not_or] at h
    rw [List.map_cons, List.sum_cons, ih h.2]
    ext p q
    · rfl
    · rfl
    · simp [edgeContent, h.1, and_or_left]

/-! ### Merging -/

theorem grows_addCounts (g h : Graph) (s : Text) : g.Grows (h.content.within [s]).counts (g.update s fun m =>
    { m with total := m.total + (h.node s).total, abstract := m.abstract + (h.node s).abstract }) := by
  refine ⟨rfl, fun hmap => hmap.update _ _, ?_, fun p q => ?_⟩
  · ext p q
    · by_cases hp : p = s <;> simp [content, node_update, Content.counts, Content.within, hp]
    · by_cases hp : p = s <;> simp [content, node_update, Content.counts, Content.within, hp]
    · by_cases hp : p = s <;> simp [content, outgoing, node_update, Content.counts, hp]
  · by_cases hq : q = s <;> simp [incoming, node_update, Content.counts, hq]

/-- What is added for one package: first its counts, and then its dependencies one by one. -/
theorem grows_mergeNode (g : Graph) (hirrefl : s ∉ h.outgoing s) :
    g.Grows (h.content.within [s]) (g.mergeNode h s) := by
  have hparts : g.Grows ((h.content.within [s]).counts + ((h.outgoing s).toList.map (edgeContent s)).sum)
      (g.mergeNode h s) :=
    (grows_addCounts g h s).trans (.foldl (fun g' t _ => grows_addEdge g' s t) (h.outgoing s).toList)
  have hsum : (h.content.within [s]).counts + ((h.outgoing s).toList.map (edgeContent s)).sum = h.content.within [s] := by
    rw [sum_edgeContent hirrefl]
    ext p q
    · rfl
    · rfl
    · simp only [Content.counts, Content.depends_add, false_or, Content.within, List.mem_singleton]
      exact and_congr_right fun hp => by rw [hp]; rfl
  exact hsum ▸ hparts

/-- Merging adds all that the other graph holds. -/
theorem grows_merge (g : Graph) (hh : h.Consistent) : g.Grows h.content (g.merge h) := by
  have hloop : g.Grows (h.packages.map fun p => h.content.within [p]).sum (g.merge h) :=
    .foldl (fun g' p _ => grows_mergeNode g' (hh.irrefl p)) h.packages
  rw [Content.sum_within _ (nodup_packages h), hh.content_within_packages] at hloop
  exact hloop

theorem content_merge (g : Graph) (hh : h.Consistent) : (g.merge h).content = g.content + h.content :=
  (grows_merge g hh).content

theorem Consistent.merge (hg : g.Consistent) (hh : h.Consistent) : (g.merge h).Consistent :=
  (grows_merge g hh).consistent hh.isSound_content hg

end Graph

end Coupling
