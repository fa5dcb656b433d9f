import Coupling.Proofs.Contents
import Mathlib.Logic.Function.Basic

/-!
# Graphs that change side by side

Several graphs are kept at once, each restricted or not. Classes are recorded in them, dependencies are added, they are
merged into each other or into themselves, and packages are looked up, which may enter a package of which nothing is held.
Whatever is done, every graph stays consistent, and so its answers can be relied on.
-/

namespace Coupling

namespace Graph

/-- Looking a package up enters it, if it is new, with nothing held for it. -/
def touch (g : Graph) (package : Text) : Graph := g.update package id

variable {g h h' : Graph} {p s : Text}

theorem grows_touch (g : Graph) (package : Text) : g.Grows 0 (g.touch package) := by
  have hnode (p : Text) : (g.touch package).node p = g.node p := by
    rw [touch, node_update]
    split
    · next hp => rw [hp]; rfl
    · rfl
  refine ⟨rfl, fun hmap => hmap.update _ _, ?_, fun p q => ?_⟩
  · rw [add_zero]
    simp only [content, outgoing, hnode]
  · simp only [incoming, hnode, Content.depends_zero, or_false]

theorem Consistent.touch (hg : g.Consistent) (package : Text) : (g.touch package).Consistent :=
  (grows_touch g package).consistent Content.isSound_zero hg

/-- What can be relied on in the answers of a graph. -/
structure Reliable (g : Graph) : Prop where
  /-- A dependency is seen from both sides. -/
  mirror : ∀ p q, q ∈ g.outgoing p ↔ p ∈ g.incoming q
  /-- No package depends on itself. -/
  outgoing_irrefl : ∀ p, p ∉ g.outgoing p
  incoming_irrefl : ∀ p, p ∉ g.incoming p
  /-- Abstract classes are classes. -/
  abstract_le : ∀ p, (g.node p).abstract ≤ (g.node p).total
  /-- The packages come in order, and they are those with a class or a dependency. -/
  increasing : g.packages.Pairwise (· < ·)
  mem_packages : ∀ p, p ∈ g.packages ↔ 0 < (g.node p).total ∨ g.outgoing p ≠ ∅
  /-- The dependencies are listed for these packages, each with its targets in order. -/
  keys : g.edges.map Prod.fst = g.packages
  targets : ∀ p targets, (p, targets) ∈ g.edges → targets = (g.outgoing p).toList ∧ targets.Pairwise (· < ·)

theorem Consistent.reliable (hg : g.Consistent) : g.Reliable where
  mirror := hg.mirror
  outgoing_irrefl := hg.irrefl
  incoming_irrefl := hg.not_mem_incoming_self
  abstract_le := hg.abstract_le
  increasing := g.packages_increasing
  mem_packages _ := hg.mem_packages_iff
  keys := g.map_fst_edges
  targets p targets hp := by
    obtain ⟨q, -, heq⟩ := List.mem_map.1 hp
    cases heq
    exact ⟨rfl, (g.outgoing p).increasing⟩

/-- A class outside its target packages is left out. -/
theorem recordCall_eq_self (g : Graph) {k : Call} (hk : k.package ∉ k.targets) : g.recordCall k = g := by
  rw [recordCall_eq, Call.sections, Call.isKept, if_neg]
  · rfl
  · rwa [List.contains_iff_mem]

/-- Graphs that have the same to give for a package. -/
structure GivesAlike (h h' : Graph) (package : Text) : Prop where
  total : (h.node package).total = (h'.node package).total
  abstract : (h.node package).abstract = (h'.node package).abstract
  outgoing : h.outgoing package = h'.outgoing package

theorem GivesAlike.trans {h'' : Graph} (hgives : GivesAlike h h' p) (hgives' : GivesAlike h' h'' p) : GivesAlike h h'' p :=
  ⟨hgives.total.trans hgives'.total, hgives.abstract.trans hgives'.abstract, hgives.outgoing.trans hgives'.outgoing⟩

theorem mergeNode_congr (g : Graph) (hgives : GivesAlike h h' p) : g.mergeNode h p = g.mergeNode h' p := by
  obtain ⟨htotal, habstract, houtgoing⟩ := hgives
  unfold outgoing at houtgoing
  simp only [mergeNode, htotal, habstract, houtgoing]

/-- Merging at one package leaves what a graph has to give for the others. -/
theorem givesAlike_mergeNode (g : Graph) (hirrefl : s ∉ h.outgoing s) (hne : p ≠ s) :
    GivesAlike (g.mergeNode h s) g p := by
  have hgrows := grows_mergeNode g hirrefl
  refine ⟨?_, ?_, SortedSet.ext fun q => ?_⟩
  · rw [hgrows.total_eq]
    simp [Content.within, hne]
  · rw [hgrows.abstract_eq]
    simp [Content.within, hne]
  · rw [hgrows.mem_outgoing]
    simp [Content.within, hne]

end Graph

/-- Several graphs, told apart by what they are called. -/
abbrev Family (ι : Type) := ι → Graph

namespace Family

variable {ι : Type} [DecidableEq ι]

/-- Changes one graph. -/
def modify (s : Family ι) (i : ι) (f : Graph → Graph) : Family ι := Function.update s i (f (s i))

/-- Adds to the graph `i` what the graph `j` holds for a package: first the counts, and then the dependencies that `j` has
by then, for it may be `i` itself. -/
def mergePackage (i j : ι) (s : Family ι) (package : Text) : Family ι :=
  let n := (s j).node package
  let counted := s.modify i fun g => g.update package fun m =>
    { m with total := m.total + n.total, abstract := m.abstract + n.abstract }
  ((counted j).outgoing package).toList.foldl (fun s target => s.modify i (·.addEdge package target)) counted

/-- Adds to the graph `i` what the graph `j` holds, package by package. -/
def mergeInto (s : Family ι) (i j : ι) : Family ι := (s j).packages.foldl (mergePackage i j) s

/-- What can be done to the graphs of a family. -/
inductive Operation (ι : Type) where
  /-- Records a class. -/
  | record (graph : ι) (call : Graph.Call)
  /-- Adds a dependency. -/
  | addEdge (graph : ι) (source target : Text)
  /-- Adds to a graph what another one holds, or what it holds itself. -/
  | merge (graph other : ι)
  /-- Looks a package up. -/
  | read (graph : ι) (package : Text)

/-- Does one thing. -/
def step (s : Family ι) : Operation ι → Family ι
  | .record i k => s.modify i (·.recordCall k)
  | .addEdge i source target => s.modify i (·.addEdge source target)
  | .merge i j => s.mergeInto i j
  | .read i package => s.modify i (·.touch package)

/-- Does one thing after the other, from empty graphs on. -/
def run (restricted : ι → Bool) (operations : List (Operation ι)) : Family ι :=
  operations.foldl step fun i => { restricted := restricted i }

variable {s : Family ι} {i j l : ι} {f : Graph → Graph}

/-! ### Changes of one graph -/

theorem modify_same (s : Family ι) (i : ι) (f : Graph → Graph) : s.modify i f i = f (s i) :=
  Function.update_self ..

theorem modify_other (f : Graph → Graph) (h : l ≠ i) : s.modify i f l = s l := Function.update_of_ne h ..

theorem modify_id (s : Family ι) (i : ι) : s.modify i (fun g => g) = s := Function.update_eq_self i s

theorem modify_modify (s : Family ι) (i : ι) (f f' : Graph → Graph) :
    (s.modify i f).modify i f' = s.modify i fun g => f' (f g) := by
  unfold modify
  rw [Function.update_self, Function.update_idem]

theorem foldl_modify {α : Type} (s : Family ι) (i : ι) (f : Graph → α → Graph) (items : List α) :
    items.foldl (fun s a => s.modify i (f · a)) s = s.modify i fun g => items.foldl f g := by
  induction items generalizing s with
  | nil => exact (modify_id s i).symm
  | cons a items ih => rw [List.foldl_cons, ih, modify_modify]; rfl

theorem consistent_modify (hs : ∀ l, (s l).Consistent) (hf : ∀ g, g.Consistent → (f g).Consistent) (l : ι) :
    (s.modify i f l).Consistent := by
  by_cases hl : l = i
  · rw [hl, modify_same]
    exact hf _ (hs i)
  · rw [modify_other f hl]
    exact hs l

/-! ### Merging in place -/

theorem mergePackage_eq (s : Family ι) (i j : ι) (p : Text) :
    s.mergePackage i j p = s.modify i (·.mergeNode (s j) p) := by
  have hout (f : Graph → Graph) (hf : ∀ g, (f g).outgoing p = g.outgoing p) :
      (s.modify i f j).outgoing p = (s j).outgoing p := by
    by_cases hj : j = i
    · rw [hj, modify_same, hf]
    · rw [modify_other f hj]
  unfold mergePackage
  dsimp only
  rw [hout, foldl_modify, modify_modify]
  · rfl
  · intro g
    simp [Graph.outgoing, Graph.node_update]

/-- Packages that are merged one after the other, each as it stands when its turn comes, are merged as they stood in `h`
at the start: a package still to come has not changed in what it has to give, even if the graph is merged into itself. -/
theorem foldl_mergePackage {h : Graph} (hirrefl : ∀ p, p ∉ h.outgoing p) {packages : List Text} (hnodup : packages.Nodup)
    (s : Family ι) (hgives : ∀ p ∈ packages, Graph.GivesAlike (s j) h p) :
    packages.foldl (mergePackage i j) s = s.modify i fun g => packages.foldl (fun g p => g.mergeNode h p) g := by
  induction packages generalizing s with
  | nil => exact (modify_id s i).symm
  | cons p packages ih =>
    rw [List.nodup_cons] at hnodup
    rw [List.forall_mem_cons] at hgives
    have hfirst : s.mergePackage i j p = s.modify i (·.mergeNode h p) := by
      rw [mergePackage_eq]
      exact congrArg (s.modify i) (funext fun g => Graph.mergeNode_congr g hgives.1)
    rw [List.foldl_cons, hfirst, ih hnodup.2, modify_modify]
    · rfl
    · intro p' hp'
      by_cases hij : j = i
      · subst hij
        rw [modify_same]
        have hne : p' ≠ p := ne_of_mem_of_not_mem hp' hnodup.1
        exact (Graph.givesAlike_mergeNode _ (hirrefl p) hne).trans (hgives.2 p' hp')
      · rw [modify_other _ hij]
        exact hgives.2 p' hp'

/-- Merging in place is merging with the graph as it was at the start. -/
theorem mergeInto_eq (s : Family ι) (i j : ι) (hj : (s j).Consistent) :
    s.mergeInto i j = s.modify i (·.merge (s j)) :=
  foldl_mergePackage hj.irrefl (Graph.nodup_packages _) s fun _ _ => ⟨rfl, rfl, rfl⟩

/-! ### What is kept up -/

theorem consistent_step (hs : ∀ l, (s l).Consistent) (op : Operation ι) (l : ι) : (s.step op l).Consistent := by
  cases op with
  | record i k => exact consistent_modify hs (fun g hg => hg.recordCall k) l
  | addEdge i source target => exact consistent_modify hs (fun g hg => hg.addEdge source target) l
  | merge i j =>
    rw [step, mergeInto_eq s i j (hs j)]
    exact consistent_modify hs (fun g hg => hg.merge (hs j)) l
  | read i package => exact consistent_modify hs (fun g hg => hg.touch package) l

theorem consistent_run (restricted : ι → Bool) (operations : List (Operation ι)) (l : ι) :
    (run restricted operations l).Consistent := by
  have hsteps (s : Family ι) (hs : ∀ l, (s l).Consistent) : ∀ l, (operations.foldl step s l).Consistent := by
    induction operations generalizing s with
    | nil => exact hs
    | cons op operations ih => exact ih _ (consistent_step hs op)
  exact hsteps _ (fun i => Graph.consistent_empty (restricted i)) l

theorem run_concat (restricted : ι → Bool) (operations : List (Operation ι)) (op : Operation ι) :
    run restricted (operations ++ [op]) = (run restricted operations).step op :=
  List.foldl_concat ..

theorem run_merge (restricted : ι → Bool) (operations : List (Operation ι)) (i j : ι) :
    run restricted (operations ++ [.merge i j]) =
      (run restricted operations).modify i (·.merge (run restricted operations j)) := by
  rw [run_concat, step, mergeInto_eq _ i j (consistent_run restricted operations j)]

/-- Whatever is done to the graphs of a family, from empty ones on, their answers can be relied on. And a class outside its
target packages is not recorded at all. -/
theorem run_reliable (restricted : ι → Bool) (operations : List (Operation ι)) :
    (∀ i, (run restricted operations i).Reliable) ∧
    ∀ i k, k.package ∉ k.targets → run restricted (operations ++ [.record i k]) = run restricted operations := by
  constructor
  · intro i
    exact (consistent_run restricted operations i).reliable
  · intro i k hk
    rw [run_concat, step]
    simp only [Graph.recordCall_eq_self _ hk]
    exact modify_id _ i

end Family

end Coupling
