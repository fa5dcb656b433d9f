import Coupling.Graph

/-!
# What recording leaves in a graph

Recording falls into sections, and each section touches one package. What a row of sections leaves at a package is told by
the sections in it, without regard to their order: how many count a class there, which add a dependency, and which add a
dependent. Everything else about recording follows from this.
-/

namespace Coupling

/-- Where each key has one entry at most, looking a key up finds what is there. -/
theorem lookup_eq_some_iff_mem {α β : Type} [BEq α] [LawfulBEq α] {entries : List (α × β)}
    (h : (entries.map Prod.fst).Nodup) {k : α} {v : β} : entries.lookup k = some v ↔ (k, v) ∈ entries := by
  induction entries with
  | nil => simp
  | cons entry entries ih =>
    obtain ⟨k', v'⟩ := entry
    rw [List.map_cons, List.nodup_cons] at h
    rw [List.lookup_cons, List.mem_cons, Prod.mk.injEq]
    by_cases hk : k = k'
    · have hnot : (k', v) ∉ entries := fun hmem => h.1 (List.mem_map.2 ⟨_, hmem, rfl⟩)
      simp [hk, hnot, eq_comm]
    · simp [hk, beq_eq_false_iff_ne.2 hk, ih h.2]

namespace Graph

/-! ### One package -/

theorem lookup_cons (q : Text) (n : Node) (nodes : List (Text × Node)) (p : Text) :
    ((q, n) :: nodes).lookup p = if p = q then some n else nodes.lookup p := by
  rw [List.lookup_cons]
  by_cases hp : p = q
  · simp [hp]
  · simp [hp, beq_eq_false_iff_ne.2 hp]

theorem lookup_updateNodes (package : Text) (f : Node → Node) (nodes : List (Text × Node)) (p : Text) :
    (updateNodes package f nodes).lookup p =
      if p = package then some (f ((nodes.lookup package).getD {})) else nodes.lookup p := by
  induction nodes with
  | nil => exact lookup_cons package (f {}) [] p
  | cons entry nodes ih =>
    obtain ⟨q, n⟩ := entry
    rw [updateNodes]
    by_cases hq : q = package
    · subst hq
      rw [if_pos rfl, lookup_cons, lookup_cons, lookup_cons, if_pos rfl]
      by_cases hp : p = q <;> simp [hp]
    · rw [if_neg hq, lookup_cons, lookup_cons, lookup_cons, ih, if_neg (Ne.symm hq)]
      by_cases hp : p = q
      · rw [if_pos hp, if_pos hp, if_neg (hp ▸ hq)]
      · rw [if_neg hp, if_neg hp]

theorem node_update (g : Graph) (package : Text) (f : Node → Node) (p : Text) :
    (g.update package f).node p = if p = package then f (g.node package) else g.node p := by
  unfold node update
  rw [lookup_updateNodes]
  split <;> rfl

/-- Each package has one entry at most. -/
def IsMap (g : Graph) : Prop := (g.nodes.map Prod.fst).Nodup

theorem mem_keys_updateNodes {package : Text} {f : Node → Node} {nodes : List (Text × Node)} {p : Text} :
    p ∈ (updateNodes package f nodes).map Prod.fst ↔ p = package ∨ p ∈ nodes.map Prod.fst := by
  induction nodes with
  | nil => simp [updateNodes]
  | cons entry nodes ih =>
    obtain ⟨q, n⟩ := entry
    rw [updateNodes]
    by_cases hq : q = package
    · simp [hq]
    · rw [if_neg hq, List.map_cons, List.map_cons, List.mem_cons, List.mem_cons, ih]
      exact or_left_comm

theorem IsMap.update {g : Graph} (h : g.IsMap) (package : Text) (f : Node → Node) : (g.update package f).IsMap := by
  have hnodes (nodes : List (Text × Node)) (h : (nodes.map Prod.fst).Nodup) :
      ((updateNodes package f nodes).map Prod.fst).Nodup := by
    induction nodes with
    | nil => simp [updateNodes]
    | cons entry nodes ih =>
      obtain ⟨q, n⟩ := entry
      rw [List.map_cons, List.nodup_cons] at h
      rw [updateNodes]
      by_cases hq : q = package
      · rw [if_pos hq, List.map_cons, List.nodup_cons]
        exact h
      · rw [if_neg hq, List.map_cons, List.nodup_cons, mem_keys_updateNodes]
        exact ⟨not_or.2 ⟨hq, h.1⟩, ih h.2⟩
  exact hnodes g.nodes h

theorem IsMap.lookup_eq_some {g : Graph} (h : g.IsMap) {p : Text} {n : Node} :
    g.nodes.lookup p = some n ↔ (p, n) ∈ g.nodes := lookup_eq_some_iff_mem h

/-! ### The graph as a whole -/

/-- The packages are those at which the graph holds something that counts. -/
theorem mem_packages {g : Graph} (h : g.IsMap) {p : Text} : p ∈ g.packages ↔ (g.node p).isActive = true := by
  have hmem : p ∈ g.packages ↔ ∃ n, (p, n) ∈ g.nodes ∧ n.isActive = true := by
    simp [packages]
  rw [hmem, node]
  constructor
  · rintro ⟨n, hn, hactive⟩
    rw [h.lookup_eq_some.2 hn]
    exact hactive
  · intro hactive
    cases hlookup : g.nodes.lookup p with
    | none =>
      rw [hlookup] at hactive
      cases hactive
    | some n =>
      rw [hlookup] at hactive
      exact ⟨n, h.lookup_eq_some.1 hlookup, hactive⟩

theorem packages_eq_of_node {g g' : Graph} (hg : g.IsMap) (hg' : g'.IsMap) (h : ∀ p, g.node p = g'.node p) :
    g.packages = g'.packages := by
  refine congrArg SortedSet.toList (SortedSet.ext fun p => ?_)
  have hp := mem_packages hg (p := p)
  have hp' := mem_packages hg' (p := p)
  rw [h p] at hp
  exact hp.trans hp'.symm

theorem edges_eq_of_node {g g' : Graph} (hg : g.IsMap) (hg' : g'.IsMap) (h : ∀ p, g.node p = g'.node p) :
    g.edges = g'.edges := by
  unfold edges outgoing
  rw [packages_eq_of_node hg hg' h]
  simp only [h]

/-- Graphs that hold the same at every package. -/
structure Agrees (g g' : Graph) : Prop where
  restricted : g.restricted = g'.restricted
  node : ∀ p, g.node p = g'.node p

theorem Agrees.packages_eq {g g' : Graph} (h : g.Agrees g') (hg : g.IsMap) (hg' : g'.IsMap) :
    g.packages = g'.packages :=
  packages_eq_of_node hg hg' h.node

theorem Agrees.edges_eq {g g' : Graph} (h : g.Agrees g') (hg : g.IsMap) (hg' : g'.IsMap) : g.edges = g'.edges :=
  edges_eq_of_node hg hg' h.node

/-- Graphs that give the same answers, whatever is asked of them. -/
structure Alike (g g' : Graph) : Prop where
  outgoing : ∀ p, g.outgoing p = g'.outgoing p
  incoming : ∀ p, g.incoming p = g'.incoming p
  total : ∀ p, (g.node p).total = (g'.node p).total
  abstract : ∀ p, (g.node p).abstract = (g'.node p).abstract
  packages : g.packages = g'.packages
  edges : g.edges = g'.edges

theorem alike_of_node {g g' : Graph} (hg : g.IsMap) (hg' : g'.IsMap) (h : ∀ p, g.node p = g'.node p) : g.Alike g' where
  outgoing p := congrArg Node.outgoing (h p)
  incoming p := congrArg Node.incoming (h p)
  total p := congrArg Node.total (h p)
  abstract p := congrArg Node.abstract (h p)
  packages := packages_eq_of_node hg hg' h
  edges := edges_eq_of_node hg hg' h

/-! ### Empty graphs -/

theorem isMap_empty (restricted : Bool) : IsMap { restricted } := List.nodup_nil

theorem not_mem_outgoing_empty (restricted : Bool) (p q : Text) : q ∉ outgoing { restricted } p :=
  SortedSet.not_mem_empty q

theorem not_mem_incoming_empty (restricted : Bool) (p q : Text) : q ∉ incoming { restricted } p :=
  SortedSet.not_mem_empty q

/-! ### Sections -/

namespace Section

/-- The package that a section touches. -/
def package : Section → Text
  | owner package .. => package
  | incoming package _ => package

/-- What a section does there. -/
def apply : Section → Node → Node
  | owner _ isAbstract destinations, n =>
    { n with
      outgoing := destinations.union n.outgoing
      total := n.total + 1
      abstract := n.abstract + if isAbstract then 1 else 0 }
  | incoming _ dependent, n => { n with incoming := n.incoming.insert dependent }

/-- Whether a section counts a class at a package. -/
def counts (p : Text) : Section → Bool
  | owner package .. => package = p
  | incoming .. => false

/-- Whether a section counts an abstract class at a package. -/
def countsAbstract (p : Text) : Section → Bool
  | owner package isAbstract _ => package = p && isAbstract
  | incoming .. => false

/-- Whether a section makes `p` depend on `q`. -/
def Adds (p q : Text) : Section → Prop
  | owner package _ destinations => package = p ∧ q ∈ destinations
  | incoming .. => False

/-- Whether a section makes `p` a dependent of `q`. -/
def Mirrors (p q : Text) : Section → Prop
  | owner .. => False
  | incoming package dependent => package = q ∧ dependent = p

end Section

theorem runSection_eq (g : Graph) (s : Section) : g.runSection s = g.update s.package s.apply := by
  cases s <;> rfl

theorem restricted_runSection (g : Graph) (s : Section) : (g.runSection s).restricted = g.restricted := by
  cases s <;> rfl

theorem node_runSection (g : Graph) (s : Section) (p : Text) :
    (g.runSection s).node p = if p = s.package then s.apply (g.node p) else g.node p := by
  rw [runSection_eq, node_update]
  by_cases hp : p = s.package
  · rw [if_pos hp, if_pos hp, hp]
  · rw [if_neg hp, if_neg hp]

theorem total_runSection (g : Graph) (s : Section) (p : Text) :
    ((g.runSection s).node p).total = (g.node p).total + if s.counts p then 1 else 0 := by
  rw [node_runSection]
  cases s with
  | owner package isAbstract destinations =>
    by_cases hp : p = package
    · simp [Section.package, Section.apply, Section.counts, hp]
    · simp [Section.package, Section.counts, hp, Ne.symm hp]
  | incoming package dependent =>
    by_cases hp : p = package <;> simp [Section.package, Section.apply, Section.counts, hp]

theorem abstract_runSection (g : Graph) (s : Section) (p : Text) :
    ((g.runSection s).node p).abstract = (g.node p).abstract + if s.countsAbstract p then 1 else 0 := by
  rw [node_runSection]
  cases s with
  | owner package isAbstract destinations =>
    by_cases hp : p = package
    · simp [Section.package, Section.apply, Section.countsAbstract, hp]
    · simp [Section.package, Section.countsAbstract, hp, Ne.symm hp]
  | incoming package dependent =>
    by_cases hp : p = package <;> simp [Section.package, Section.apply, Section.countsAbstract, hp]

theorem mem_outgoing_runSection {g : Graph} {s : Section} {p q : Text} :
    q ∈ (g.runSection s).outgoing p ↔ q ∈ g.outgoing p ∨ s.Adds p q := by
  unfold outgoing
  rw [node_runSection]
  cases s with
  | owner package isAbstract destinations =>
    by_cases hp : p = package
    · simp [Section.package, Section.apply, Section.Adds, hp, or_comm]
    · simp [Section.package, Section.Adds, hp, Ne.symm hp]
  | incoming package dependent =>
    by_cases hp : p = package <;> simp [Section.package, Section.apply, Section.Adds, hp]

theorem mem_incoming_runSection {g : Graph} {s : Section} {p q : Text} :
    p ∈ (g.runSection s).incoming q ↔ p ∈ g.incoming q ∨ s.Mirrors p q := by
  unfold incoming
  rw [node_runSection]
  cases s with
  | owner package isAbstract destinations =>
    by_cases hq : q = package <;> simp [Section.package, Section.apply, Section.Mirrors, hq]
  | incoming package dependent =>
    by_cases hq : q = package
    · simp [Section.package, Section.apply, Section.Mirrors, hq, or_comm, eq_comm]
    · simp [Section.package, Section.Mirrors, hq, Ne.symm hq]

/-! ### Rows of sections -/

variable {g : Graph} {row row' : List Section} {p q : Text}

theorem restricted_run (g : Graph) (row : List Section) : (row.foldl runSection g).restricted = g.restricted := by
  induction row generalizing g with
  | nil => rfl
  | cons s row ih => exact (ih _).trans (restricted_runSection g s)

theorem IsMap.run (h : g.IsMap) (row : List Section) : (row.foldl runSection g).IsMap := by
  induction row generalizing g with
  | nil => exact h
  | cons s row ih =>
    refine ih ?_
    rw [runSection_eq]
    exact h.update _ _

theorem total_run (g : Graph) (row : List Section) (p : Text) :
    ((row.foldl runSection g).node p).total = (g.node p).total + row.countP (Section.counts p) := by
  induction row generalizing g with
  | nil => rfl
  | cons s row ih =>
    rw [List.foldl_cons, ih, total_runSection, List.countP_cons]
    omega

theorem abstract_run (g : Graph) (row : List Section) (p : Text) :
    ((row.foldl runSection g).node p).abstract = (g.node p).abstract + row.countP (Section.countsAbstract p) := by
  induction row generalizing g with
  | nil => rfl
  | cons s row ih =>
    rw [List.foldl_cons, ih, abstract_runSection, List.countP_cons]
    omega

theorem mem_outgoing_run :
    q ∈ (row.foldl runSection g).outgoing p ↔ q ∈ g.outgoing p ∨ ∃ s ∈ row, s.Adds p q := by
  induction row generalizing g with
  | nil => simp
  | cons s row ih =>
    rw [List.foldl_cons, ih, mem_outgoing_runSection, or_assoc]
    simp only [List.mem_cons, exists_eq_or_imp]

theorem mem_incoming_run :
    p ∈ (row.foldl runSection g).incoming q ↔ p ∈ g.incoming q ∨ ∃ s ∈ row, s.Mirrors p q := by
  induction row generalizing g with
  | nil => simp
  | cons s row ih =>
    rw [List.foldl_cons, ih, mem_incoming_runSection, or_assoc]
    simp only [List.mem_cons, exists_eq_or_imp]

/-- What is held for a package is its counts, its dependencies and its dependents. -/
theorem node_eq_of_observers {g g' : Graph} {p : Text} (htotal : (g.node p).total = (g'.node p).total)
    (habstract : (g.node p).abstract = (g'.node p).abstract) (hout : ∀ q, q ∈ g.outgoing p ↔ q ∈ g'.outgoing p)
    (hin : ∀ q, q ∈ g.incoming p ↔ q ∈ g'.incoming p) : g.node p = g'.node p := by
  have hp : (g.node p).outgoing = (g'.node p).outgoing := SortedSet.ext hout
  have hp' : (g.node p).incoming = (g'.node p).incoming := SortedSet.ext hin
  cases h : g.node p
  cases h' : g'.node p
  simp_all

/-- Graphs agree when they have the same counts, dependencies and dependents. -/
theorem Agrees.of_observers {g g' : Graph} (hrestricted : g.restricted = g'.restricted)
    (htotal : ∀ p, (g.node p).total = (g'.node p).total) (habstract : ∀ p, (g.node p).abstract = (g'.node p).abstract)
    (hout : ∀ p q, q ∈ g.outgoing p ↔ q ∈ g'.outgoing p) (hin : ∀ p q, q ∈ g.incoming p ↔ q ∈ g'.incoming p) :
    g.Agrees g' :=
  ⟨hrestricted, fun p => node_eq_of_observers (htotal p) (habstract p) (hout p) (hin p)⟩

/-- The order of the sections does not matter. -/
theorem agrees_of_perm (h : row.Perm row') : (row.foldl runSection g).Agrees (row'.foldl runSection g) := by
  refine .of_observers ?_ (fun p => ?_) (fun p => ?_) (fun p q => ?_) (fun p q => ?_)
  · rw [restricted_run, restricted_run]
  · rw [total_run, total_run, h.countP_eq]
  · rw [abstract_run, abstract_run, h.countP_eq]
  · simp only [mem_outgoing_run, h.mem_iff]
  · simp only [mem_incoming_run, h.mem_iff]

/-! ### Recorded classes -/

/-- A class to be recorded: the types it refers to, and the packages that are looked for. -/
structure Call where
  /-- The class. -/
  owner : ClassSummary
  /-- The types that it refers to. -/
  references : List Text
  /-- The packages that are looked for. -/
  targets : List Text

namespace Call

/-- The package of the class. -/
def package (k : Call) : Text := k.owner.package

/-- Whether the package of the class is looked for. -/
def isKept (k : Call) : Bool := k.targets.contains k.package

/-- Whether the class makes its package depend on another. -/
def DependsOn (restricted : Bool) (k : Call) (q : Text) : Prop :=
  (∃ t ∈ k.references, TypeName.package t = q) ∧ q ≠ k.package ∧ (q ∈ k.targets ∨ restricted = false)

/-- The packages that the class makes its package depend on. -/
def destinations (restricted : Bool) (k : Call) : SortedSet Text :=
  Graph.destinations { restricted } k.package k.references k.targets

/-- The sections of recording the class, none if it is left out. -/
def sections (restricted : Bool) (k : Call) : List Section :=
  if k.isKept then
    .owner k.package k.owner.isAbstract (k.destinations restricted) ::
      (k.destinations restricted).toList.map (.incoming · k.package)
  else []

end Call

/-- Records a class. -/
def recordCall (g : Graph) (k : Call) : Graph := (g.record k.owner k.references k.targets).2

theorem Call.mem_destinations {restricted : Bool} {k : Call} :
    q ∈ k.destinations restricted ↔ k.DependsOn restricted q := by
  simp [Call.destinations, Graph.destinations, Call.DependsOn, or_comm]

theorem recordCall_eq (g : Graph) (k : Call) : g.recordCall k = (k.sections g.restricted).foldl runSection g := by
  unfold recordCall record Call.sections Call.isKept Call.package
  split <;> rfl

/-- Recording classes one after the other runs their sections one after the other. -/
theorem recordCalls_eq (g : Graph) (calls : List Call) :
    calls.foldl recordCall g = (calls.flatMap (Call.sections g.restricted)).foldl runSection g := by
  induction calls generalizing g with
  | nil => rfl
  | cons k calls ih =>
    rw [List.foldl_cons, ih, List.flatMap_cons, List.foldl_append, ← recordCall_eq]
    rw [recordCall_eq, restricted_run]

section Sections

variable {r : Bool} {k : Call}

/-- Of the sections of a class, only the first can count it. -/
theorem countP_sections {f : Section → Bool} (hf : ∀ q p, f (.incoming q p) = false) (r : Bool) (calls : List Call) :
    (calls.flatMap (Call.sections r)).countP f =
      calls.countP fun k => k.isKept && f (.owner k.package k.owner.isAbstract (k.destinations r)) := by
  induction calls with
  | nil => rfl
  | cons k calls ih =>
    rw [List.flatMap_cons, List.countP_append, ih, List.countP_cons, Nat.add_comm, Call.sections]
    cases k.isKept with
    | false => rfl
    | true =>
      have hnone : ((k.destinations r).toList.map (Section.incoming · k.package)).countP f = 0 := by
        simp [List.countP_eq_zero, hf]
      rw [if_pos rfl, List.countP_cons, hnone, Bool.true_and, Nat.zero_add]

/-- Some section of some class. -/
theorem exists_mem_sections {calls : List Call} {P : Section → Prop} :
    (∃ s ∈ calls.flatMap (Call.sections r), P s) ↔ ∃ k ∈ calls, ∃ s ∈ k.sections r, P s := by
  constructor
  · rintro ⟨s, hs, hP⟩
    obtain ⟨k, hk, hs⟩ := List.mem_flatMap.1 hs
    exact ⟨k, hk, s, hs, hP⟩
  · rintro ⟨k, hk, s, hs, hP⟩
    exact ⟨s, List.mem_flatMap.2 ⟨k, hk, hs⟩, hP⟩

theorem exists_adds_sections :
    (∃ s ∈ k.sections r, s.Adds p q) ↔ k.isKept = true ∧ k.package = p ∧ k.DependsOn r q := by
  unfold Call.sections
  cases k.isKept with
  | false => simp
  | true => simp [Section.Adds, Call.mem_destinations]

theorem exists_mirrors_sections :
    (∃ s ∈ k.sections r, s.Mirrors p q) ↔ k.isKept = true ∧ k.package = p ∧ k.DependsOn r q := by
  unfold Call.sections
  cases k.isKept with
  | false => simp
  | true =>
    constructor
    · rintro ⟨s, hs, hmirrors⟩
      rw [if_pos rfl, List.mem_cons, List.mem_map] at hs
      rcases hs with rfl | ⟨t, ht, rfl⟩
      · exact hmirrors.elim
      · obtain ⟨rfl, rfl⟩ := hmirrors
        exact ⟨rfl, rfl, Call.mem_destinations.1 ht⟩
    · rintro ⟨-, rfl, hq⟩
      rw [if_pos rfl]
      exact ⟨_, List.mem_cons_of_mem _ (List.mem_map.2 ⟨q, Call.mem_destinations.2 hq, rfl⟩), rfl, rfl⟩

end Sections

/-! What is recorded of classes, beside what the graph held before. -/

theorem total_recordCalls (g : Graph) (calls : List Call) (p : Text) : ((calls.foldl recordCall g).node p).total =
    (g.node p).total + calls.countP fun k => k.isKept && k.package = p := by
  rw [recordCalls_eq, total_run, countP_sections fun _ _ => rfl]
  rfl

theorem abstract_recordCalls (g : Graph) (calls : List Call) (p : Text) :
    ((calls.foldl recordCall g).node p).abstract =
      (g.node p).abstract + calls.countP fun k => k.isKept && (k.package = p && k.owner.isAbstract) := by
  rw [recordCalls_eq, abstract_run, countP_sections fun _ _ => rfl]
  rfl

theorem mem_outgoing_recordCalls {calls : List Call} : q ∈ (calls.foldl recordCall g).outgoing p ↔
    q ∈ g.outgoing p ∨ ∃ k ∈ calls, k.isKept = true ∧ k.package = p ∧ k.DependsOn g.restricted q := by
  rw [recordCalls_eq, mem_outgoing_run, exists_mem_sections]
  simp only [exists_adds_sections]

theorem mem_incoming_recordCalls {calls : List Call} : p ∈ (calls.foldl recordCall g).incoming q ↔
    p ∈ g.incoming q ∨ ∃ k ∈ calls, k.isKept = true ∧ k.package = p ∧ k.DependsOn g.restricted q := by
  rw [recordCalls_eq, mem_incoming_run, exists_mem_sections]
  simp only [exists_mirrors_sections]

theorem IsMap.recordCalls (h : g.IsMap) (calls : List Call) : (calls.foldl recordCall g).IsMap := by
  rw [recordCalls_eq]
  exact h.run _

/-- The order in which classes are recorded does not matter. -/
theorem agrees_recordCalls_of_perm {calls calls' : List Call} (h : calls.Perm calls') :
    (calls.foldl recordCall g).Agrees (calls'.foldl recordCall g) := by
  rw [recordCalls_eq, recordCalls_eq]
  exact agrees_of_perm (h.flatMap_right _)

/-! ### Classes with common targets -/

/-- The graph of some classes, each with the types that it refers to, for some target packages. -/
def recorded (restricted : Bool) (targets : List Text) (classes : List (ClassSummary × List Text)) : Graph :=
  classes.foldl (fun g c => (g.record c.1 c.2 targets).2) { restricted }

/-- The call that records a class with its references. -/
def Call.ofClass (targets : List Text) (c : ClassSummary × List Text) : Call := ⟨c.1, c.2, targets⟩

theorem recorded_eq (restricted : Bool) (targets : List Text) (classes : List (ClassSummary × List Text)) :
    recorded restricted targets classes = (classes.map (Call.ofClass targets)).foldl recordCall { restricted } := by
  rw [List.foldl_map]
  rfl

end Graph

end Coupling
