import Coupling.Proofs.Recording

/-!
# Recording from several workers

Workers that record classes at the same time run the sections of their calls one at a time, in some interleaving. Nothing
is certain of it but that a call counts its class, and adds the dependencies, before it shows itself to the packages that
the class depends on; these may come in any order. In the end the graph is the same as if the calls had come one after the
other. On the way a dependency may be seen from its source only, but never from its target only.
-/

namespace Coupling.Graph

/-- A section, with the number of the call that it belongs to. -/
abbrev Task := Nat × Section

/-- Whether a section is the one at the owner's package. -/
def Section.isOwner : Section → Bool
  | owner .. => true
  | incoming .. => false

/-- The sections of some calls, each with the number of its call. -/
def tasks (restricted : Bool) (calls : List Call) : List Task :=
  calls.zipIdx.flatMap fun (k, i) => (k.sections restricted).map (i, ·)

/-- An order in which workers can run the sections of some calls. -/
structure Interleaves (restricted : Bool) (calls : List Call) (row : List Task) : Prop where
  /-- Every section of every call runs once. -/
  perm : row.Perm (tasks restricted calls)
  /-- The section at the owner's package comes before the others of its call. -/
  ownerFirst : row.Pairwise fun a b => a.1 = b.1 → b.2.isOwner = false

/-- Runs tasks one after the other. -/
def runTasks (g : Graph) (row : List Task) : Graph := (row.map Prod.snd).foldl runSection g

variable {restricted : Bool} {calls : List Call} {row done rest : List Task} {i : Nat} {s : Section} {p q : Text}

/-! ### The sections of a call -/

theorem mem_tasks : (i, s) ∈ tasks restricted calls ↔ ∃ k, calls[i]? = some k ∧ s ∈ k.sections restricted := by
  unfold tasks
  rw [List.mem_flatMap]
  constructor
  · rintro ⟨⟨k, j⟩, hk, hs⟩
    obtain ⟨s', hs', heq⟩ := List.mem_map.1 hs
    cases heq
    exact ⟨k, List.mem_zipIdx_iff_getElem?.1 hk, hs'⟩
  · rintro ⟨k, hk, hs⟩
    exact ⟨(k, i), List.mem_zipIdx_iff_getElem?.2 hk, List.mem_map.2 ⟨s, hs, rfl⟩⟩

theorem map_snd_tasks (restricted : Bool) (calls : List Call) :
    (tasks restricted calls).map Prod.snd = calls.flatMap (Call.sections restricted) := by
  have hsnd (k : Call) (i : Nat) : ((k.sections restricted).map (i, ·)).map Prod.snd = k.sections restricted := by
    simp [List.map_map, Function.comp_def]
  unfold tasks
  rw [List.map_flatMap]
  simp only [hsnd]
  rw [← List.flatMap_map Prod.fst, List.zipIdx_map_fst]

theorem Section.Adds.isOwner (h : s.Adds p q) : s.isOwner = true := by
  cases s with
  | owner => rfl
  | incoming => exact h.elim

/-- A call that shows a package to its dependency adds the dependency too. -/
theorem exists_adds_of_mirrors (h : (i, s) ∈ tasks restricted calls) (hs : s.Mirrors p q) :
    ∃ o, (i, o) ∈ tasks restricted calls ∧ o.Adds p q := by
  obtain ⟨k, hk, hmem⟩ := mem_tasks.1 h
  obtain ⟨o, ho, hadds⟩ := exists_adds_sections.2 (exists_mirrors_sections.1 ⟨s, hmem, hs⟩)
  exact ⟨o, mem_tasks.2 ⟨k, hk, ho⟩, hadds⟩

theorem not_adds_self (h : (i, s) ∈ tasks restricted calls) : ¬s.Adds p p := by
  intro hadds
  obtain ⟨k, -, hmem⟩ := mem_tasks.1 h
  obtain ⟨-, hpackage, -, hne, -⟩ := exists_adds_sections.1 ⟨s, hmem, hadds⟩
  exact hne hpackage.symm

/-! ### On the way -/

theorem abstract_le_total_run (row : List Section) (p : Text) :
    ((row.foldl runSection { restricted }).node p).abstract ≤ ((row.foldl runSection { restricted }).node p).total := by
  rw [abstract_run, total_run]
  refine Nat.add_le_add_left (List.countP_mono_left fun s _ hs => ?_) 0
  cases s with
  | owner package isAbstract destinations => exact (Bool.and_eq_true_iff.1 hs).1
  | incoming => cases hs

section Moments

variable (h : Interleaves restricted calls (done ++ rest))

include h

/-- What was run so far belongs to some call. -/
theorem Interleaves.mem_tasks_of_done {t : Task} (ht : t ∈ done) : t ∈ tasks restricted calls :=
  h.perm.mem_iff.1 (List.mem_append_left rest ht)

theorem Interleaves.not_mem_outgoing_self : p ∉ (runTasks { restricted } done).outgoing p := by
  unfold runTasks
  rw [mem_outgoing_run]
  rintro (hp | ⟨s, hs, hadds⟩)
  · exact not_mem_outgoing_empty restricted p p hp
  · obtain ⟨⟨i, s⟩, ht, rfl⟩ := List.mem_map.1 hs
    exact not_adds_self (h.mem_tasks_of_done ht) hadds

/-- A dependency that its target knows of is known to its source. -/
theorem Interleaves.mem_outgoing_of_mem_incoming (hp : p ∈ (runTasks { restricted } done).incoming q) :
    q ∈ (runTasks { restricted } done).outgoing p := by
  unfold runTasks at hp ⊢
  rw [mem_incoming_run] at hp
  obtain hp | ⟨s, hs, hmirrors⟩ := hp
  · exact absurd hp (not_mem_incoming_empty restricted q p)
  · obtain ⟨⟨i, s⟩, ht, rfl⟩ := List.mem_map.1 hs
    obtain ⟨o, ho, hadds⟩ := exists_adds_of_mirrors (h.mem_tasks_of_done ht) hmirrors
    -- The owner's section of the same call is run somewhere, and not after this one.
    have hdone : (i, o) ∈ done := by
      rcases List.mem_append.1 (h.perm.mem_iff.2 ho) with hdone | hrest
      · exact hdone
      · have hlater : o.isOwner = false := (List.pairwise_append.1 h.ownerFirst).2.2 _ ht _ hrest rfl
        exact absurd hlater (by simp [hadds.isOwner])
    exact mem_outgoing_run.2 (.inr ⟨o, List.mem_map.2 ⟨_, hdone, rfl⟩, hadds⟩)

end Moments

/-! ### In the end -/

theorem Interleaves.agrees (h : Interleaves restricted calls row) :
    (runTasks { restricted } row).Agrees (calls.foldl recordCall { restricted }) := by
  have hperm : (row.map Prod.snd).Perm (calls.flatMap (Call.sections restricted)) := by
    rw [← map_snd_tasks]
    exact h.perm.map Prod.snd
  rw [recordCalls_eq]
  exact agrees_of_perm hperm

/-- In the end the order of the calls does not matter. -/
theorem Interleaves.alike (h : Interleaves restricted calls row) {calls' : List Call} (hcalls : calls.Perm calls') :
    Alike (runTasks { restricted } row) (calls'.foldl recordCall { restricted }) := by
  refine alike_of_node ((isMap_empty _).run _) ((isMap_empty _).recordCalls _) fun p => ?_
  exact (h.agrees.node p).trans ((agrees_recordCalls_of_perm hcalls).node p)

/-- Workers that record classes into an empty graph, in whatever interleaving, leave a graph that answers like the one
that takes the calls one after the other, in whatever order. At every moment on the way, what is known of a dependency at
its target is known at its source, no package depends on itself, and no package has more abstract classes than classes. -/
theorem interleaved_recording (h : Interleaves restricted calls row) :
    (∀ calls', calls.Perm calls' →
      Alike (runTasks { restricted } row) (calls'.foldl recordCall { restricted })) ∧
    ∀ done, done <+: row →
      (∀ p q, p ∈ (runTasks { restricted } done).incoming q → q ∈ (runTasks { restricted } done).outgoing p) ∧
      (∀ p, p ∉ (runTasks { restricted } done).outgoing p ∧ p ∉ (runTasks { restricted } done).incoming p) ∧
      ∀ p, ((runTasks { restricted } done).node p).abstract ≤ ((runTasks { restricted } done).node p).total := by
  constructor
  · intro calls' hcalls
    exact h.alike hcalls
  · rintro done ⟨rest, rfl⟩
    refine ⟨fun p q => h.mem_outgoing_of_mem_incoming, fun p => ⟨h.not_mem_outgoing_self, fun hp => ?_⟩, fun p => ?_⟩
    · exact h.not_mem_outgoing_self (h.mem_outgoing_of_mem_incoming hp)
    · exact abstract_le_total_run _ p

/-- Two classes that depend on each other's packages. -/
def sampleCalls : List Call :=
  [⟨{ name := "a.A", flags := 0x400 }, ["b.B", "c.C", "a.D[]"], ["a", "b"]⟩,
    ⟨{ name := "b.B", flags := 0 }, ["a.A", "c.C"], ["b", "a", "c"]⟩]

/-- Both classes are counted before either shows itself to the package of the other. -/
def sampleRow : List Task :=
  [(0, .owner "a" true (.ofList ["b"])), (1, .owner "b" false (.ofList ["a", "c"])), (1, .incoming "c" "b"),
    (0, .incoming "b" "a"), (1, .incoming "a" "b")]

theorem interleaves_sampleRow : Interleaves true sampleCalls sampleRow where
  perm := by
    have htasks : tasks true sampleCalls = [(0, .owner "a" true (.ofList ["b"])), (0, .incoming "b" "a"),
        (1, .owner "b" false (.ofList ["a", "c"])), (1, .incoming "a" "b"), (1, .incoming "c" "b")] := rfl
    rw [htasks]
    exact .cons _ ((List.Perm.cons _ (.swap _ _ _)).trans ((List.Perm.swap _ _ _).trans (.cons _ (.cons _ (.swap _ _ _)))))
  ownerFirst := by simp [sampleRow, Section.isOwner]

theorem interleaved_recording_sample : Interleaves true sampleCalls sampleRow ∧
    Alike (runTasks { restricted := true } sampleRow) (sampleCalls.reverse.foldl recordCall { restricted := true }) ∧
    ∀ p q, p ∈ (runTasks { restricted := true } (sampleRow.take 3)).incoming q →
      q ∈ (runTasks { restricted := true } (sampleRow.take 3)).outgoing p := by
  obtain ⟨hend, hmoments⟩ := interleaved_recording interleaves_sampleRow
  exact ⟨interleaves_sampleRow, hend _ (List.reverse_perm _).symm, (hmoments _ (List.take_prefix 3 _)).1⟩

end Coupling.Graph
