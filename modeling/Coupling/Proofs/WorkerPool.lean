import Coupling.Proofs.Interleaving
import Coupling.Proofs.Scanning

/-!
# Scanning with several workers

Files are handed to a pool of workers. A free worker takes up the next file. It reads the class in it, and if there is one to
record, it runs the sections of recording it, the one at the owner's package first; between two sections of one worker, others
may run theirs. What came of a file is taken in later, in whatever order.

However the workers take turns, the sections that they run are an interleaving of the calls that record the classes, so the
graph is the one that a scan of the files one after the other gives. The result is the same too. And the pool never gets stuck:
each of its steps leaves less to do, and as long as there is something to do, there is a step.
-/

namespace Coupling.Scan

open Coupling.Graph (Section Task tasks runTasks Interleaves Alike)
open Logged (Gives)

variable (read : ReadFile) (o : Options)

/-- What taking in a file does to the result. -/
def tally (result : ScanResult) (file : Path) : ScanResult :=
  let result := { result with scanned := result.scanned + 1 }
  match outcome read file with
  | .ok c => if o.targets.contains c.package then { result with decoded := result.decoded + 1 } else result
  | .error f => { result with skipped := result.skipped ++ [⟨file, f.message⟩] }

theorem next_eq (state : Graph × ScanResult) (file : Path) : (next read o state file).2 = tally read o state.2 file := by
  unfold next tally
  cases outcome read file with
  | error f => rfl
  | ok c =>
    dsimp only
    split
    · rfl
    · rfl

theorem foldl_tally (files : List Path) (result : ScanResult) : files.foldl (tally read o) result =
    { result with
      scanned := result.scanned + files.length
      decoded := result.decoded + (classes read o.targets files).length
      skipped := result.skipped ++ failures read files } := by
  have hnext (g : Graph) : (files.foldl (next read o) (g, result)).2 = files.foldl (tally read o) result := by
    induction files generalizing g result with
    | nil => rfl
    | cons file files ih =>
      have hfirst := next_eq read o (g, result) file
      rw [List.foldl_cons, List.foldl_cons, ← hfirst]
      exact ih _ _
  rw [← hnext { }, foldl_next]

/-- The calls that record the classes in some files. -/
def calls (files : List Path) : List Graph.Call := (classes read o.targets files).map (call o)

/-! ### Pools -/

/-- A class that a worker records. -/
structure Job where
  /-- How many classes were taken up before. -/
  number : Nat
  /-- The file of the class. -/
  file : Path
  /-- The sections that are still to be run. -/
  pending : List Section

/-- A pool of workers. -/
structure Pool where
  /-- The files that no worker has taken up. -/
  waiting : List Path
  /-- The classes that are being recorded. -/
  running : List Job := []
  /-- The files that are done with, but not taken in. -/
  done : List Path := []
  /-- How many classes were taken up. -/
  taken : Nat := 0
  /-- The graph. -/
  graph : Graph
  /-- What was taken in. -/
  result : ScanResult := {}

namespace Pool

/-- Whether there is nothing left to do. -/
def IsDone (s : Pool) : Prop := s.waiting = [] ∧ s.running = [] ∧ s.done = []

/-- What may happen next in a pool, with the section that is run by it, if one is. -/
inductive Step : Pool → List Task → Pool → Prop where
  /-- A free worker takes up the next file, and there is nothing in it to record. -/
  | pass {s : Pool} {file : Path} {rest : List Path} : s.waiting = file :: rest → s.running.length < o.workers →
    class? read o.targets file = none → Step s [] { s with waiting := rest, done := s.done ++ [file] }
  /-- A free worker takes up the next file, and there is a class in it to record. -/
  | take {s : Pool} {file : Path} {rest : List Path} {c : ClassSummary} : s.waiting = file :: rest →
    s.running.length < o.workers → class? read o.targets file = some c → Step s []
      { s with
        waiting := rest
        running := s.running ++ [⟨s.taken, file, (call o c).sections s.graph.restricted⟩]
        taken := s.taken + 1 }
  /-- A worker runs a section: the one at the owner's package, or, after it, any other. -/
  | advance {s : Pool} {before after : List Job} {job : Job} {x : Section} {front back : List Section} :
    s.running = before ++ job :: after → job.pending = front ++ x :: back → (∀ y ∈ front, y.isOwner = false) →
    Step s [(job.number, x)]
      { s with
        running := before ++ { job with pending := front ++ back } :: after
        graph := s.graph.runSection x }
  /-- A worker has recorded its class. -/
  | finish {s : Pool} {before after : List Job} {job : Job} : s.running = before ++ job :: after → job.pending = [] →
    Step s [] { s with running := before ++ after, done := s.done ++ [job.file] }
  /-- A file is taken in. -/
  | collect {s : Pool} {before after : List Path} {file : Path} : s.done = before ++ file :: after →
    Step s [] { s with done := before ++ after, result := tally read o s.result file }

/-- What a pool may come to, with the sections that are run on the way. -/
inductive Runs : Pool → List Task → Pool → Prop where
  | refl (s : Pool) : Runs s [] s
  | step {s s' s'' : Pool} {row label : List Task} : Runs s row s' → Step read o s' label s'' → Runs s (row ++ label) s''

/-! ### What every step keeps -/

end Pool

/-- The sections that a job still has to run, with its number. -/
def Job.tasks (job : Job) : List Task := job.pending.map (job.number, ·)

/-- A job runs the section at the owner's package before all others: none of the sections that are left is that one, or it
is the first of them and none was run yet. -/
def Job.InOrder (row : List Task) (job : Job) : Prop :=
  (∀ x ∈ job.pending, x.isOwner = false) ∨ (∀ t ∈ row, t.1 ≠ job.number) ∧ ∀ x ∈ job.pending.tail, x.isOwner = false

section InOrder

variable {row : List Task} {job other : Job} {x : Section} {front back : List Section}

theorem Job.InOrder.of_ne (h : other.InOrder row) (hne : job.number ≠ other.number) :
    other.InOrder (row ++ [(job.number, x)]) := by
  rcases h with hall | ⟨hnone, htail⟩
  · exact .inl hall
  · refine .inr ⟨fun t ht => ?_, htail⟩
    rcases List.mem_append.1 ht with ht | ht
    · exact hnone t ht
    · obtain rfl := List.mem_singleton.1 ht
      exact hne

/-- A section that is run is the first of its job, or not at the owner's package. -/
theorem Job.InOrder.isOwner (h : job.InOrder row) (hpending : job.pending = front ++ x :: back) {t : Task} (ht : t ∈ row)
    (hnumber : t.1 = job.number) : x.isOwner = false := by
  rcases h with hall | ⟨hnone, -⟩
  · exact hall x (by simp [hpending])
  · exact absurd hnumber (hnone t ht)

/-- Once a section was run, the one at the owner's package was. -/
theorem Job.InOrder.advance (h : job.InOrder row) (hpending : job.pending = front ++ x :: back)
    (hfront : ∀ y ∈ front, y.isOwner = false) : ∀ y ∈ front ++ back, y.isOwner = false := by
  intro y hy
  rcases List.mem_append.1 hy with hy | hback
  · exact hfront y hy
  · rcases h with hall | ⟨-, htail⟩
    · exact hall y (by simp [hpending, hback])
    · refine htail y ?_
      rw [hpending]
      cases front with
      | nil => exact hback
      | cons z front => simp [hback]

end InOrder

section Running

variable {before after : List Job} {job other : Job} {x : Section} {front back : List Section}

/-- A section that is run is one less to be run. -/
theorem Job.perm_tasks (hpending : job.pending = front ++ x :: back) :
    ((job.number, x) :: (before ++ { job with pending := front ++ back } :: after).flatMap Job.tasks).Perm
      ((before ++ job :: after).flatMap Job.tasks) := by
  have htasks : job.tasks = front.map (job.number, ·) ++ (job.number, x) :: back.map (job.number, ·) := by
    simp [Job.tasks, hpending]
  have htasks' : Job.tasks { job with pending := front ++ back } =
      front.map (job.number, ·) ++ back.map (job.number, ·) := List.map_append
  rw [List.flatMap_append, List.flatMap_append, List.flatMap_cons, List.flatMap_cons, htasks, htasks']
  generalize before.flatMap Job.tasks = earlier, after.flatMap Job.tasks = later
  have hperm : ((job.number, x) :: (earlier ++ front.map (job.number, ·) ++ (back.map (job.number, ·) ++ later))).Perm
      (earlier ++ front.map (job.number, ·) ++ (job.number, x) :: (back.map (job.number, ·) ++ later)) :=
    List.perm_middle.symm
  simpa using hperm

/-- When a job goes on, all others stay, and have other numbers. -/
theorem Job.cases_of_mem {job' : Job} (hdistinct : ((before ++ job :: after).map Job.number).Nodup)
    (hother : other ∈ before ++ job' :: after) :
    other = job' ∨ other ∈ before ++ job :: after ∧ job.number ≠ other.number := by
  rw [List.map_append, List.map_cons] at hdistinct
  have hnumber := (List.nodup_cons.1 (List.perm_middle.nodup_iff.1 hdistinct)).1
  rcases List.mem_cons.1 (List.perm_middle.mem_iff.1 hother) with rfl | hother
  · exact .inl rfl
  · refine .inr ⟨List.perm_middle.mem_iff.2 (List.mem_cons_of_mem job hother), fun heq => hnumber ?_⟩
    rw [heq, ← List.map_append]
    exact List.mem_map_of_mem hother

end Running

namespace Pool

/-- What is true of a pool after some files were taken up, some of them were taken in, and some sections were run. -/
structure Invariant (restricted : Bool) (files begun collected : List Path) (row : List Task) (s : Pool) : Prop where
  /-- Files are taken up in their order. -/
  waiting : files = begun ++ s.waiting
  /-- What was taken up was taken in, or is done with, or is being recorded. -/
  accounted : (collected ++ (s.done ++ s.running.map Job.file)).Perm begun
  result : s.result = collected.foldl (tally read o) {}
  taken : s.taken = (calls read o begun).length
  /-- The sections of the classes that were taken up were run, or are still to be run. -/
  sections : (row ++ s.running.flatMap Job.tasks).Perm (tasks restricted (calls read o begun))
  graph : s.graph = runTasks { restricted } row
  ownerFirst : row.Pairwise fun a b => a.1 = b.1 → b.2.isOwner = false
  inOrder : ∀ job ∈ s.running, job.InOrder row
  bounded : ∀ job ∈ s.running, job.number < s.taken
  distinct : (s.running.map Job.number).Nodup

variable {read o} {restricted : Bool} {files begun collected : List Path} {row : List Task} {s : Pool}

theorem invariant_start (restricted : Bool) (files : List Path) :
    Invariant read o restricted files [] [] [] { waiting := files, graph := { restricted } } where
  waiting := rfl
  accounted := .nil
  result := rfl
  taken := rfl
  sections := .nil
  graph := rfl
  ownerFirst := .nil
  inOrder _ h := absurd h List.not_mem_nil
  bounded _ h := absurd h List.not_mem_nil
  distinct := .nil

theorem Invariant.restricted_eq (h : Invariant read o restricted files begun collected row s) :
    s.graph.restricted = restricted := by
  rw [h.graph, runTasks, Graph.restricted_run]

/-- The numbers of sections that were run are those of jobs that were taken up. -/
theorem Invariant.lt_taken (h : Invariant read o restricted files begun collected row s) {t : Task} (ht : t ∈ row) :
    t.1 < s.taken := by
  have hmem : (t.1, t.2) ∈ tasks restricted (calls read o begun) := h.sections.mem_iff.1 (List.mem_append_left _ ht)
  obtain ⟨k, hk, -⟩ := Graph.mem_tasks.1 hmem
  rw [h.taken]
  exact (List.getElem?_eq_some_iff.1 hk).1

theorem Invariant.pass (h : Invariant read o restricted files begun collected row s) {file : Path} {rest : List Path}
    (hwaiting : s.waiting = file :: rest) (hnone : class? read o.targets file = none) :
    Invariant read o restricted files (begun ++ [file]) collected row
      { s with waiting := rest, done := s.done ++ [file] } := by
  have hcalls : calls read o (begun ++ [file]) = calls read o begun := by
    simp [calls, classes, hnone]
  refine { h with waiting := ?_, accounted := ?_, taken := ?_, sections := ?_ }
  · rw [h.waiting, hwaiting]
    simp
  · refine List.Perm.trans ?_ (h.accounted.append_right [file])
    simp only [List.append_assoc]
    exact (List.perm_append_comm.append_left _).append_left _
  · rw [hcalls]
    exact h.taken
  · rw [hcalls]
    exact h.sections

theorem tasks_concat (restricted : Bool) (ks : List Graph.Call) (k : Graph.Call) :
    tasks restricted (ks ++ [k]) = tasks restricted ks ++ (k.sections restricted).map (ks.length, ·) := by
  simp [tasks, List.zipIdx_append]

theorem Invariant.take (h : Invariant read o restricted files begun collected row s) {file : Path} {rest : List Path}
    {c : ClassSummary} (hwaiting : s.waiting = file :: rest) (hclass : class? read o.targets file = some c) :
    Invariant read o restricted files (begun ++ [file]) collected row
      { s with
        waiting := rest
        running := s.running ++ [⟨s.taken, file, (call o c).sections s.graph.restricted⟩]
        taken := s.taken + 1 } := by
  have hcalls : calls read o (begun ++ [file]) = calls read o begun ++ [call o c] := by
    simp [calls, classes, hclass]
  refine ⟨?_, ?_, h.result, ?_, ?_, h.graph, h.ownerFirst, ?_, ?_, ?_⟩
  · rw [h.waiting, hwaiting]
    simp
  · rw [List.map_append, ← List.append_assoc, ← List.append_assoc, List.append_assoc collected]
    exact h.accounted.append_right [file]
  · rw [hcalls, List.length_append, ← h.taken]
    rfl
  · rw [hcalls, tasks_concat, ← h.taken, h.restricted_eq, List.flatMap_append, List.flatMap_singleton, ← List.append_assoc]
    exact h.sections.append_right _
  · intro job hjob
    rcases List.mem_append.1 hjob with hjob | hjob
    · exact h.inOrder job hjob
    · obtain rfl := List.mem_singleton.1 hjob
      refine .inr ⟨fun t ht => Nat.ne_of_lt (h.lt_taken ht), fun x hx => ?_⟩
      dsimp only [Graph.Call.sections] at hx
      split at hx
      · obtain ⟨q, -, rfl⟩ := List.mem_map.1 hx
        rfl
      · cases hx
  · intro job hjob
    rcases List.mem_append.1 hjob with hjob | hjob
    · exact Nat.lt_succ_of_lt (h.bounded job hjob)
    · obtain rfl := List.mem_singleton.1 hjob
      exact Nat.lt_succ_self _
  · rw [List.map_append, List.nodup_append]
    refine ⟨h.distinct, List.pairwise_singleton _ _, fun n hn m hm => ?_⟩
    obtain ⟨job, hjob, rfl⟩ := List.mem_map.1 hn
    obtain rfl := List.mem_singleton.1 hm
    exact Nat.ne_of_lt (h.bounded job hjob)

theorem Invariant.advance (h : Invariant read o restricted files begun collected row s) {before after : List Job} {job : Job}
    {x : Section} {front back : List Section} (hrunning : s.running = before ++ job :: after)
    (hpending : job.pending = front ++ x :: back) (hfront : ∀ y ∈ front, y.isOwner = false) :
    Invariant read o restricted files begun collected (row ++ [(job.number, x)])
      { s with
        running := before ++ { job with pending := front ++ back } :: after
        graph := s.graph.runSection x } := by
  obtain ⟨hwaiting, haccounted, hresult, htaken, hsections, hgraph, hownerFirst, hinOrder, hbounded, hdistinct⟩ := h
  rw [hrunning] at haccounted hsections hinOrder hbounded hdistinct
  have hmem : job ∈ before ++ job :: after := List.mem_append_right before List.mem_cons_self
  refine ⟨hwaiting, by simpa using haccounted, hresult, htaken, ?_, ?_, ?_, ?_, ?_, by simpa using hdistinct⟩
  · rw [List.append_assoc]
    exact ((Job.perm_tasks hpending).append_left row).trans hsections
  · rw [hgraph]
    simp [runTasks]
  · rw [List.pairwise_append]
    refine ⟨hownerFirst, List.pairwise_singleton _ _, fun a ha b hb heq => ?_⟩
    obtain rfl := List.mem_singleton.1 hb
    exact (hinOrder job hmem).isOwner hpending ha heq
  · intro other hother
    rcases Job.cases_of_mem hdistinct hother with rfl | ⟨hother, hne⟩
    · exact .inl ((hinOrder job hmem).advance hpending hfront)
    · exact (hinOrder other hother).of_ne hne
  · intro other hother
    rcases Job.cases_of_mem hdistinct hother with rfl | ⟨hother, -⟩
    · exact hbounded job hmem
    · exact hbounded other hother

theorem Invariant.finish (h : Invariant read o restricted files begun collected row s) {before after : List Job} {job : Job}
    (hrunning : s.running = before ++ job :: after) (hpending : job.pending = []) :
    Invariant read o restricted files begun collected row
      { s with running := before ++ after, done := s.done ++ [job.file] } := by
  have hsub : (before ++ after).Sublist s.running := by
    rw [hrunning]
    exact (List.sublist_cons_self job after).append_left before
  refine ⟨h.waiting, ?_, h.result, h.taken, ?_, h.graph, h.ownerFirst, fun other hother => h.inOrder other (hsub.subset hother),
    fun other hother => h.bounded other (hsub.subset hother), h.distinct.sublist (hsub.map _)⟩
  · refine List.Perm.trans (.append_left _ ?_) h.accounted
    rw [hrunning, List.append_assoc]
    refine .append_left _ ?_
    simpa using List.perm_middle.symm
  · have htasks : s.running.flatMap Job.tasks = (before ++ after).flatMap Job.tasks := by
      simp [hrunning, Job.tasks, hpending]
    rw [← htasks]
    exact h.sections

theorem Invariant.collect (h : Invariant read o restricted files begun collected row s) {before after : List Path} {file : Path}
    (hdone : s.done = before ++ file :: after) :
    Invariant read o restricted files begun (collected ++ [file]) row
      { s with done := before ++ after, result := tally read o s.result file } := by
  refine { h with accounted := ?_, result := ?_ }
  · refine List.Perm.trans ?_ h.accounted
    rw [hdone, List.append_assoc]
    refine .append_left _ ?_
    simpa using List.perm_middle.symm
  · rw [h.result, List.foldl_append]
    rfl

/-- Every step keeps what is true of a pool. -/
theorem Invariant.step (h : Invariant read o restricted files begun collected row s) {label : List Task} {s' : Pool}
    (hstep : Step read o s label s') :
    ∃ begun' collected', Invariant read o restricted files begun' collected' (row ++ label) s' := by
  cases hstep with
  | pass hwaiting _ hnone => exact ⟨_, _, (List.append_nil row).symm ▸ h.pass hwaiting hnone⟩
  | take hwaiting _ hclass => exact ⟨_, _, (List.append_nil row).symm ▸ h.take hwaiting hclass⟩
  | advance hrunning hpending hfront => exact ⟨_, _, h.advance hrunning hpending hfront⟩
  | finish hrunning hpending => exact ⟨_, _, (List.append_nil row).symm ▸ h.finish hrunning hpending⟩
  | collect hdone => exact ⟨_, _, (List.append_nil row).symm ▸ h.collect hdone⟩

/-- What is true of a pool in every run. -/
theorem Runs.invariant (h : Runs read o { waiting := files, graph := { restricted } } row s) :
    ∃ begun collected, Invariant read o restricted files begun collected row s := by
  generalize hstart : ({ waiting := files, graph := { restricted } } : Pool) = start at h
  induction h with
  | refl =>
    subst hstart
    exact ⟨[], [], invariant_start restricted files⟩
  | step _ hstep ih =>
    obtain ⟨begun, collected, hs⟩ := ih
    exact hs.step hstep

/-! ### The end of a run -/

/-- However the workers take turns, they run an interleaving of the calls that record the classes. -/
theorem Runs.interleaves (h : Runs read o { waiting := files, graph := { restricted } } row s) (hdone : s.IsDone) :
    Interleaves restricted (calls read o files) row := by
  obtain ⟨begun, collected, hs⟩ := h.invariant
  obtain ⟨hwaiting, hrunning, -⟩ := hdone
  have hbegun : begun = files := by rw [hs.waiting, hwaiting, List.append_nil]
  have hsections := hs.sections
  rw [hrunning, hbegun] at hsections
  exact ⟨by simpa using hsections, hs.ownerFirst⟩

/-- What was taken in by the end are all files, in some order. -/
theorem Runs.result_eq (h : Runs read o { waiting := files, graph := { restricted } } row s) (hdone : s.IsDone) :
    ∃ collected, collected.Perm files ∧ s.result =
      { scanned := collected.length
        decoded := (classes read o.targets collected).length
        skipped := failures read collected } := by
  obtain ⟨begun, collected, hs⟩ := h.invariant
  obtain ⟨hwaiting, hrunning, hcollected⟩ := hdone
  have hbegun : begun = files := by rw [hs.waiting, hwaiting, List.append_nil]
  have haccounted := hs.accounted
  rw [hrunning, hcollected, hbegun] at haccounted
  refine ⟨collected, by simpa using haccounted, ?_⟩
  rw [hs.result, foldl_tally]
  simp

/-- A scan that is not called off comes to the same with a pool of workers, however they take turns, as if files were scanned
one after the other. The graphs answer alike, and the results are equal once the files that were left out are in order. -/
theorem Runs.scan (h : Runs read o { waiting := files, graph := { restricted } } row s) (hdone : s.IsDone)
    (htargets : o.targets ≠ []) (hasked : o.askings = none) :
    ∃ g, Gives (run read o { restricted } files) (g, { s.result with skipped := sortSkipped s.result.skipped }) ∧
      Alike s.graph g := by
  obtain ⟨_, _, hs⟩ := h.invariant
  obtain ⟨collected, hperm, hresult⟩ := h.result_eq hdone
  have hrun := gives_run read htargets hasked { restricted } files
  have hclasses : (classes read o.targets collected).length = (classes read o.targets files).length :=
    (hperm.filterMap _).length_eq
  have halike : Alike s.graph ((calls read o files).foldl Graph.recordCall { restricted }) := by
    rw [hs.graph]
    exact (h.interleaves hdone).alike (.refl _)
  refine ⟨_, ?_, halike⟩
  rw [hresult, hperm.length_eq, hclasses, sortSkipped_failures_eq read hperm]
  exact hrun

/-! ### Progress -/

variable (read o) in
/-- The sections that recording the class in a file takes. -/
def fileSections (restricted : Bool) (file : Path) : List Section :=
  match class? read o.targets file with
  | some c => (call o c).sections restricted
  | none => []

variable (read o) in
/-- How much there is left to do. -/
def work (s : Pool) : Nat :=
  3 * s.waiting.length + (s.waiting.flatMap (fileSections read o s.graph.restricted)).length + 2 * s.running.length +
    (s.running.flatMap Job.pending).length + s.done.length

theorem Step.work_lt {label : List Task} {s' : Pool} (h : Step read o s label s') : s'.work read o < s.work read o := by
  unfold work
  cases h with
  | pass hwaiting _ hnone =>
    simp only [hwaiting, fileSections, hnone, List.flatMap_cons, List.length_append, List.length_cons, List.length_nil]
    omega
  | take hwaiting _ hclass =>
    simp only [hwaiting, fileSections, hclass, List.flatMap_cons, List.flatMap_append, List.length_append, List.length_cons,
      List.flatMap_nil, List.length_nil]
    omega
  | advance hrunning hpending _ =>
    simp only [hrunning, hpending, Graph.restricted_runSection, List.flatMap_append, List.flatMap_cons, List.length_append,
      List.length_cons]
    omega
  | finish hrunning hpending =>
    simp only [hrunning, hpending, List.flatMap_append, List.flatMap_cons, List.length_append, List.length_cons,
      List.length_nil]
    omega
  | collect hdone =>
    simp only [hdone, List.length_append, List.length_cons]
    omega

variable (read) in
/-- As long as there is something to do, there is a step. -/
theorem exists_step (hworkers : 1 ≤ o.workers) (h : ¬s.IsDone) : ∃ label s', Step read o s label s' := by
  cases hdone : s.done with
  | cons file rest => exact ⟨_, _, .collect (hdone.trans (List.nil_append _).symm)⟩
  | nil =>
    cases hrunning : s.running with
    | cons job rest =>
      cases hpending : job.pending with
      | nil => exact ⟨_, _, .finish (hrunning.trans (List.nil_append _).symm) hpending⟩
      | cons x back =>
        exact ⟨_, _, .advance (hrunning.trans (List.nil_append _).symm) (hpending.trans (List.nil_append _).symm) (by simp)⟩
    | nil =>
      cases hwaiting : s.waiting with
      | nil => exact absurd ⟨hwaiting, hrunning, hdone⟩ h
      | cons file rest =>
        have hfree : (s.running.length : Int) < o.workers := by
          rw [hrunning]
          exact hworkers
        cases hclass : class? read o.targets file with
        | none => exact ⟨_, _, .pass hwaiting hfree hclass⟩
        | some c => exact ⟨_, _, .take hwaiting hfree hclass⟩

/-- A pool with a worker can always be run to its end. -/
theorem exists_runs (hworkers : 1 ≤ o.workers) (s : Pool) : ∃ row s', Runs read o s row s' ∧ s'.IsDone := by
  have hfrom (n : Nat) {row : List Task} {s' : Pool} (hruns : Runs read o s row s') (hwork : s'.work read o = n) :
      ∃ row s', Runs read o s row s' ∧ s'.IsDone := by
    induction n using Nat.strongRecOn generalizing row s' with
    | ind n ih =>
      by_cases hdone : s'.IsDone
      · exact ⟨row, s', hruns, hdone⟩
      · obtain ⟨label, s'', hstep⟩ := exists_step read hworkers hdone
        exact ih _ (hwork ▸ hstep.work_lt) (hruns.step hstep) rfl
  exact hfrom _ (.refl s) rfl

end Pool

end Coupling.Scan
