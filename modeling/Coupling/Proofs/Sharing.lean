import Coupling.Proofs.Families

/-!
# Work that is shared out

Merging graphs adds what they hold, on both sides of every dependency. So the classes of a project can be shared out to
several graphs, and the graphs merged in whatever order: the answers are those of one graph that takes in all classes.
-/

namespace Coupling

namespace Graph

variable {g h : Graph}

/-- A graph that holds what two others hold together. -/
structure IsSum (g h sum : Graph) : Prop where
  total : ∀ p, (sum.node p).total = (g.node p).total + (h.node p).total
  abstract : ∀ p, (sum.node p).abstract = (g.node p).abstract + (h.node p).abstract
  outgoing : ∀ p, sum.outgoing p = (g.outgoing p).union (h.outgoing p)
  incoming : ∀ p, sum.incoming p = (g.incoming p).union (h.incoming p)

theorem isSum_merge (g : Graph) (hh : h.Consistent) : IsSum g h (g.merge h) where
  total := (grows_merge g hh).total_eq
  abstract := (grows_merge g hh).abstract_eq
  outgoing p := SortedSet.ext fun q => by
    rw [(grows_merge g hh).mem_outgoing, SortedSet.mem_union]
    rfl
  incoming p := SortedSet.ext fun q => by
    rw [(grows_merge g hh).incoming, SortedSet.mem_union]
    exact or_congr_right (hh.mirror q p)

/-- A way to share out classes, each with the types that it refers to: every part has a graph of its own, and the graphs
are merged two by two. -/
inductive Plan where
  /-- A part that is recorded in one graph. -/
  | part (classes : List (ClassSummary × List Text))
  /-- The graph of the one side takes in the graph of the other. -/
  | merged (left right : Plan)

namespace Plan

/-- The classes of all parts. -/
def classes : Plan → List (ClassSummary × List Text)
  | part classes => classes
  | merged left right => left.classes ++ right.classes

/-- The graph in the end. -/
def graph (restricted : Bool) (targets : List Text) : Plan → Graph
  | part classes => recorded restricted targets classes
  | merged left right => (left.graph restricted targets).merge (right.graph restricted targets)

end Plan

variable {restricted : Bool} {targets : List Text} {classes : List (ClassSummary × List Text)}

theorem content_recorded : (recorded restricted targets classes).content =
    (classes.map fun c => (Call.ofClass targets c).content restricted).sum := by
  rw [recorded_eq, (grows_recordCalls _ _).content, content_empty, zero_add, List.map_map]
  rfl

theorem Plan.consistent_graph (plan : Plan) : (plan.graph restricted targets).Consistent := by
  induction plan with
  | part classes => exact consistent_recorded ..
  | merged left right ihleft ihright => exact ihleft.merge ihright

theorem Plan.content_graph (plan : Plan) : (plan.graph restricted targets).content =
    (plan.classes.map fun c => (Call.ofClass targets c).content restricted).sum := by
  induction plan with
  | part classes => exact content_recorded
  | merged left right ihleft ihright =>
    rw [graph, content_merge _ right.consistent_graph, ihleft, ihright, classes, List.map_append, List.sum_append]

end Graph

namespace Family

variable {ι : Type} [DecidableEq ι]

/-- Merging a graph into another one, or into itself, adds up counts and unites dependencies on both sides, and changes no
other graph. So the order of merging does not matter, and classes may be shared out to any number of graphs: merged in any
order, they answer like one graph that takes in all classes. -/
theorem merge_adds (restricted : ι → Bool) (operations : List (Operation ι)) (i j l : ι) :
    Graph.IsSum (run restricted operations i) (run restricted operations j)
      (run restricted (operations ++ [.merge i j]) i) ∧
    (l ≠ i → run restricted (operations ++ [.merge i j]) l = run restricted operations l) ∧
    Graph.Alike ((run restricted operations i).merge (run restricted operations j))
      ((run restricted operations j).merge (run restricted operations i)) ∧
    Graph.Alike (((run restricted operations i).merge (run restricted operations j)).merge (run restricted operations l))
      ((run restricted operations i).merge ((run restricted operations j).merge (run restricted operations l))) ∧
    ∀ (restricted : Bool) (targets : List Text) (plan : Graph.Plan) (classes : List (ClassSummary × List Text)),
      plan.classes.Perm classes → Graph.Alike (plan.graph restricted targets) (Graph.recorded restricted targets classes) := by
  have hi := consistent_run restricted operations i
  have hj := consistent_run restricted operations j
  have hl := consistent_run restricted operations l
  refine ⟨?_, fun hli => ?_, ?_, ?_, fun restricted targets plan classes hperm => ?_⟩
  · rw [run_merge, modify_same]
    exact Graph.isSum_merge _ hj
  · rw [run_merge, modify_other _ hli]
  · refine (hi.merge hj).alike (hj.merge hi) ?_
    rw [Graph.content_merge _ hj, Graph.content_merge _ hi, add_comm]
  · refine ((hi.merge hj).merge hl).alike (hi.merge (hj.merge hl)) ?_
    rw [Graph.content_merge _ hl, Graph.content_merge _ hj, Graph.content_merge _ (hj.merge hl),
      Graph.content_merge _ hl, add_assoc]
  · refine plan.consistent_graph.alike (Graph.consistent_recorded ..) ?_
    rw [plan.content_graph, Graph.content_recorded]
    exact (hperm.map _).sum_eq

end Family

end Coupling
