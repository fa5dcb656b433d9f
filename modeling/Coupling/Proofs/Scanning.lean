import Coupling.Analysis.Scan
import Coupling.Proofs.Decoding
import Coupling.Proofs.Recording
import Mathlib.Logic.Basic

/-!
# What a scan leaves

A scan that is not called off takes in every file of a list. Each file holds a class or fails, and what the scan leaves is
told by the classes and the failures alone: the graph by the classes of the target packages, and the result by their number
and by the failures. Nothing depends on the order of the files.
-/

namespace Coupling

/-! ### Computations that write to the log -/

namespace Logged

variable {α β : Type}

/-- What a computation gives, whatever the log holds. -/
def Gives (x : Logged α) (a : α) : Prop := ∀ log, ∃ log', x.run log = (a, log')

protected theorem Gives.pure (a : α) : Gives (pure a) a := fun log => ⟨log, rfl⟩

protected theorem Gives.bind {x : Logged α} {k : α → Logged β} {a : α} {b : β} (hx : Gives x a) (hk : Gives (k a) b) :
    Gives (x >>= k) b := by
  intro log
  obtain ⟨log₁, h₁⟩ := hx log
  obtain ⟨log₂, h₂⟩ := hk log₁
  refine ⟨log₂, ?_⟩
  rw [StateT.run_bind, h₁]
  exact h₂

/-- A computation gives one thing only. -/
theorem Gives.unique {x : Logged α} {a b : α} (h : Gives x a) (h' : Gives x b) : a = b := by
  obtain ⟨log, hrun⟩ := h []
  obtain ⟨log', hrun'⟩ := h' []
  exact congrArg Prod.fst (hrun.symm.trans hrun')

theorem gives_say (level : Level) (text : Text) : Gives (say level text) () := fun _ => ⟨_, rfl⟩

theorem gives_forM {items : List α} {act : α → Logged PUnit} (h : ∀ a, Gives (act a) ()) : Gives (items.forM act) () := by
  induction items with
  | nil => exact .pure ()
  | cons a items ih => exact (h a).bind ih

theorem gives_foldlM {step : β → α → Logged β} {next : β → α → β} (h : ∀ b a, Gives (step b a) (next b a))
    (items : List α) (b : β) : Gives (items.foldlM step b) (items.foldl next b) := by
  induction items generalizing b with
  | nil => exact .pure b
  | cons a items ih =>
    rw [List.foldlM_cons]
    exact (h b a).bind (ih _)

end Logged

/-! ### Paths in order -/

namespace Path

theorem le_iff {p q : Path} : p.le q = true ↔ p.key ≤ q.key := decide_eq_true_iff

/-- Paths are told apart by what they are ordered by. -/
theorem eq_of_key {p q : Path} (h : p.key = q.key) : p = q := by
  -- The slashes in front of an absolute path are like no component.
  have hfront {n : Nat} (hn : n ≠ 0) : ('/' : CodePoint) ∈ List.replicate n ('/' : CodePoint) :=
    List.mem_replicate.2 ⟨hn, rfl⟩
  obtain ⟨n, parts, hp⟩ := p
  obtain ⟨m, parts', hq⟩ := q
  unfold key isAbsolute at h
  by_cases hn : n = 0 <;> by_cases hm : m = 0
  · simpa [hn, hm] using h
  · simp [hn, hm] at h
    exact absurd (hfront hm) (hp _ (h ▸ List.mem_cons_self))
  · simp [hn, hm] at h
    exact absurd (hfront hn) (hq _ (h ▸ List.mem_cons_self))
  · simp only [hn, hm, ne_eq, not_false_eq_true, decide_true, if_true, List.cons.injEq] at h
    obtain ⟨hslashes, rfl⟩ := h
    obtain rfl : n = m := by simpa using congrArg List.length hslashes
    rfl

end Path

namespace Scan

open Logged (Gives gives_say gives_forM gives_foldlM)

/-! ### Files -/

variable (read : ReadFile)

/-- What is found in a file. -/
def outcome (file : Path) : Except ArtifactFault ClassSummary :=
  match read file with
  | .error f => .error (.unreadable file f)
  | .ok bytes => (ClassFile.decode bytes).outcome.mapError .undecodable

/-- The class of a target package in a file. -/
def class? (targets : List Text) (file : Path) : Option ClassSummary :=
  match outcome read file with
  | .ok c => if targets.contains c.package then some c else none
  | .error _ => none

/-- The entry of a file that fails. -/
def failure? (file : Path) : Option Skipped :=
  match outcome read file with
  | .ok _ => none
  | .error f => some ⟨file, f.message⟩

/-- The classes of target packages in some files. -/
def classes (targets : List Text) (files : List Path) : List ClassSummary := files.filterMap (class? read targets)

/-- The entries of the files that fail. -/
def failures (files : List Path) : List Skipped := files.filterMap (failure? read)

theorem gives_readClass (file : Path) : Gives (readClass read file) (outcome read file) := by
  unfold readClass outcome
  cases read file with
  | error f => exact .pure _
  | ok bytes => exact (gives_forM fun note => gives_say _ _).bind (.pure _)

variable (o : Options)

/-- The call that records a class. -/
def call (c : ClassSummary) : Graph.Call := ⟨c, (c.references o.builtinPrefixes).toList, o.targets⟩

/-- What taking a file in comes to. -/
def next (state : Graph × ScanResult) (file : Path) : Graph × ScanResult :=
  let result := { state.2 with scanned := state.2.scanned + 1 }
  match outcome read file with
  | .ok c =>
    if o.targets.contains c.package then
      (state.1.recordCall (call o c), { result with decoded := result.decoded + 1 })
    else (state.1, result)
  | .error f => (state.1, { result with skipped := result.skipped ++ [⟨file, f.message⟩] })

theorem gives_recordClass (g : Graph) (c : ClassSummary) : Gives (recordClass o g c)
    (if o.targets.contains c.package then (true, g.recordCall (call o c)) else (false, g)) := by
  unfold recordClass
  split
  · next hc =>
    have hrecord : g.record c (c.references o.builtinPrefixes).toList o.targets = (true, g.recordCall (call o c)) := by
      simp only [Graph.recordCall, Graph.record, call, hc, if_true]
    rw [← hrecord]
    exact (gives_say _ _).bind (.pure _)
  · exact .pure _

theorem gives_scanFile (g : Graph) (file : Path) : Gives (scanFile read o g file) ((outcome read file).map fun c =>
    if o.targets.contains c.package then (true, g.recordCall (call o c)) else (false, g)) := by
  unfold scanFile
  refine (gives_readClass read file).bind ?_
  cases outcome read file with
  | error f => exact .pure _
  | ok c => exact (gives_recordClass o g c).bind (.pure _)

theorem gives_step (state : Graph × ScanResult) (file : Path) :
    Gives (step read o state file) (next read o state file) := by
  obtain ⟨g, result⟩ := state
  unfold step next
  refine (gives_scanFile read o g file).bind ?_
  cases outcome read file with
  | error f => exact (gives_say _ _).bind (.pure _)
  | ok c =>
    dsimp only [Except.map]
    by_cases hc : o.targets.contains c.package = true
    · rw [if_pos hc, if_pos hc]
      exact .pure _
    · rw [if_neg hc, if_neg hc]
      exact .pure _

/-- Each file adds to the classes or to the failures, or to neither. -/
theorem foldl_next (files : List Path) (g : Graph) (result : ScanResult) : files.foldl (next read o) (g, result) =
    (((classes read o.targets files).map (call o)).foldl Graph.recordCall g,
      { result with
        scanned := result.scanned + files.length
        decoded := result.decoded + (classes read o.targets files).length
        skipped := result.skipped ++ failures read files }) := by
  induction files generalizing g result with
  | nil => simp [classes, failures]
  | cons file files ih =>
    rw [List.foldl_cons, classes, failures, List.filterMap_cons, List.filterMap_cons, class?, failure?, next]
    cases outcome read file with
    | error f =>
      rw [ih]
      simp [classes, failures, Nat.add_assoc, Nat.add_comm 1]
    | ok c =>
      by_cases hc : o.targets.contains c.package = true
      · dsimp only
        rw [if_pos hc, if_pos hc, ih]
        simp [classes, failures, Nat.add_assoc, Nat.add_comm 1]
      · dsimp only
        rw [if_neg hc, if_neg hc, ih]
        simp [classes, failures, Nat.add_assoc, Nat.add_comm 1]

/-- A scan takes in as many files as it reaches. -/
theorem gives_run_reach {o : Options} (htargets : o.targets ≠ []) (g : Graph) (files : List Path) :
    Gives (run read o g files)
      (((classes read o.targets (files.take (reach o files.length).1)).map (call o)).foldl Graph.recordCall g,
        { scanned := (files.take (reach o files.length).1).length
          decoded := (classes read o.targets (files.take (reach o files.length).1)).length
          skipped := sortSkipped (failures read (files.take (reach o files.length).1))
          cancelled := (reach o files.length).2 }) := by
  have hfold := gives_foldlM (gives_step read o) (files.take (reach o files.length).1) (g, {})
  rw [foldl_next] at hfold
  unfold run
  rw [if_neg htargets]
  refine hfold.bind ((gives_say _ _).bind ?_)
  simp only [Nat.zero_add, List.nil_append]
  exact .pure _

/-- A scan that is never called off takes in every file. -/
theorem gives_run {o : Options} (htargets : o.targets ≠ []) (hasked : o.askings = none) (g : Graph) (files : List Path) :
    Gives (run read o g files)
      (((classes read o.targets files).map (call o)).foldl Graph.recordCall g,
        { scanned := files.length
          decoded := (classes read o.targets files).length
          skipped := sortSkipped (failures read files)
          cancelled := false }) := by
  have hreach : reach o files.length = (files.length, false) := by rw [reach, hasked]
  have hrun := gives_run_reach read htargets g files
  rw [hreach] at hrun
  simpa only [List.take_length] using hrun

/-! ### Failures in order -/

theorem sortSkipped_perm (skipped : List Skipped) : (sortSkipped skipped).Perm skipped := List.mergeSort_perm _ _

theorem sortSkipped_pairwise (skipped : List Skipped) :
    (sortSkipped skipped).Pairwise fun a b => a.path.key ≤ b.path.key := by
  have hsorted : (sortSkipped skipped).Pairwise fun a b => a.path.le b.path = true := by
    refine List.pairwise_mergeSort (fun a b c => ?_) (fun a b => ?_) skipped
    · simpa only [Path.le_iff] using Std.le_trans
    · simpa only [Bool.or_eq_true, Path.le_iff] using Std.le_total
  simpa only [Path.le_iff] using hsorted

theorem mem_failures {files : List Path} {s : Skipped} : s ∈ failures read files ↔
    s.path ∈ files ∧ ∃ f, outcome read s.path = .error f ∧ s.reason = f.message := by
  have hfailure {file : Path} : failure? read file = some s ↔
      file = s.path ∧ ∃ f, outcome read s.path = .error f ∧ s.reason = f.message := by
    unfold failure?
    constructor
    · intro h
      cases ho : outcome read file with
      | ok c =>
        rw [ho] at h
        cases h
      | error f =>
        rw [ho] at h
        obtain rfl := Option.some.inj h
        exact ⟨rfl, f, ho, rfl⟩
    · rintro ⟨rfl, f, hf, hreason⟩
      rw [hf]
      simp only [← hreason]
  simp only [failures, List.mem_filterMap, hfailure]
  constructor
  · rintro ⟨file, hfile, rfl, hf⟩
    exact ⟨hfile, hf⟩
  · rintro ⟨hfile, hf⟩
    exact ⟨s.path, hfile, rfl, hf⟩

/-- The failures of the same files, in whatever order, are sorted in one way. -/
theorem sortSkipped_failures_eq {files files' : List Path} (h : files.Perm files') :
    sortSkipped (failures read files) = sortSkipped (failures read files') := by
  have hperm : (failures read files).Perm (failures read files') := h.filterMap _
  refine List.Perm.eq_of_pairwise (fun a b ha hb hab hba => ?_) (sortSkipped_pairwise _) (sortSkipped_pairwise _)
    ((sortSkipped_perm _).trans (hperm.trans (sortSkipped_perm _).symm))
  obtain ⟨-, f, hf, hreason⟩ := (mem_failures read).1 ((sortSkipped_perm _).mem_iff.1 ha)
  obtain ⟨-, f', hf', hreason'⟩ := (mem_failures read).1 ((sortSkipped_perm _).mem_iff.1 hb)
  have hpath : a.path = b.path := Path.eq_of_key (Std.le_antisymm hab hba)
  rw [hpath, hf'] at hf
  cases hf
  exact congrArg₂ Skipped.mk hpath (hreason.trans hreason'.symm)

/-! ### What is left -/

/-- What a graph and a result say of the files of a scan. -/
structure Accounts (restricted : Bool) (files : List Path) (g : Graph) (result : ScanResult) : Prop where
  scanned : result.scanned = files.length
  decoded : result.decoded = (classes read o.targets files).length
  skipped : result.skipped.Perm (failures read files)
  inOrder : result.skipped.Pairwise fun a b => a.path.key ≤ b.path.key
  cancelled : result.cancelled = false
  total : ∀ p, (g.node p).total = (classes read o.targets files).countP fun c => c.package = p
  abstract : ∀ p, (g.node p).abstract = (classes read o.targets files).countP fun c => c.package = p && c.isAbstract
  outgoing : ∀ p q, q ∈ g.outgoing p ↔ ∃ c ∈ classes read o.targets files, c.package = p ∧
    (∃ t ∈ c.references o.builtinPrefixes, TypeName.package t = q) ∧ q ≠ p ∧ (q ∈ o.targets ∨ restricted = false)
  incoming : ∀ p q, p ∈ g.incoming q ↔ q ∈ g.outgoing p

theorem isKept_of_mem_classes {files : List Path} {c : ClassSummary} (h : c ∈ classes read o.targets files) :
    (call o c).isKept = true := by
  obtain ⟨file, -, hclass⟩ := List.mem_filterMap.1 h
  unfold class? at hclass
  split at hclass
  · split at hclass
    · next hc =>
      cases hclass
      exact hc
    · cases hclass
  · cases hclass

theorem accounts_run (restricted : Bool) (files : List Path) : Accounts read o restricted files
    (((classes read o.targets files).map (call o)).foldl Graph.recordCall { restricted })
    { scanned := files.length
      decoded := (classes read o.targets files).length
      skipped := sortSkipped (failures read files)
      cancelled := false } where
  scanned := rfl
  decoded := rfl
  skipped := sortSkipped_perm _
  inOrder := sortSkipped_pairwise _
  cancelled := rfl
  total p := by
    rw [Graph.total_recordCalls, List.countP_map]
    refine (Nat.zero_add _).trans (List.countP_congr fun c hc => ?_)
    show ((call o c).isKept && decide (c.package = p)) = true ↔ decide (c.package = p) = true
    rw [isKept_of_mem_classes read o hc, Bool.true_and]
  abstract p := by
    rw [Graph.abstract_recordCalls, List.countP_map]
    refine (Nat.zero_add _).trans (List.countP_congr fun c hc => ?_)
    show ((call o c).isKept && (decide (c.package = p) && c.isAbstract)) = true ↔
      (decide (c.package = p) && c.isAbstract) = true
    rw [isKept_of_mem_classes read o hc, Bool.true_and]
  outgoing p q := by
    simp only [Graph.mem_outgoing_recordCalls, Graph.not_mem_outgoing_empty, false_or, List.mem_map]
    constructor
    · rintro ⟨_, ⟨c, hc, rfl⟩, -, rfl, hreferences, hne, htarget⟩
      exact ⟨c, hc, rfl, hreferences, hne, htarget⟩
    · rintro ⟨c, hc, rfl, hreferences, hne, htarget⟩
      exact ⟨_, ⟨c, hc, rfl⟩, isKept_of_mem_classes read o hc, rfl, hreferences, hne, htarget⟩
  incoming p q := by
    simp only [Graph.mem_incoming_recordCalls, Graph.mem_outgoing_recordCalls, Graph.not_mem_incoming_empty,
      Graph.not_mem_outgoing_empty]

/-- A scan of files into an empty graph, for some targets and never called off, counts every file once, lists the failures
in order, and leaves in the graph the classes of the target packages and their dependencies, and nothing else. Neither the
order of the files nor the number of workers matters. -/
theorem run_accounts {o : Options} (htargets : o.targets ≠ []) (hasked : o.askings = none) (restricted : Bool)
    (files : List Path) (log : Log) :
    ∃ g result log', (run read o { restricted } files).run log = ((g, result), log') ∧
      Accounts read o restricted files g result ∧
      ∀ workers files' log, files.Perm files' → ∃ g' result' log',
        (run read { o with workers } { restricted } files').run log = ((g', result'), log') ∧ g.Agrees g' ∧
          g.packages = g'.packages ∧ g.edges = g'.edges ∧ result = result' := by
  obtain ⟨log', hrun⟩ := gives_run read htargets hasked { restricted } files log
  refine ⟨_, _, log', hrun, accounts_run read o restricted files, fun workers files' log hperm => ?_⟩
  obtain ⟨log', hrun'⟩ := gives_run read (o := { o with workers }) htargets hasked { restricted } files' log
  have hclasses : (classes read o.targets files).Perm (classes read o.targets files') := hperm.filterMap _
  have hagrees := Graph.agrees_recordCalls_of_perm (g := { restricted }) (hclasses.map (call o))
  refine ⟨_, _, log', hrun', hagrees, ?_, ?_, ?_⟩
  · exact hagrees.packages_eq ((Graph.isMap_empty _).recordCalls _) ((Graph.isMap_empty _).recordCalls _)
  · exact hagrees.edges_eq ((Graph.isMap_empty _).recordCalls _) ((Graph.isMap_empty _).recordCalls _)
  · rw [sortSkipped_failures_eq read hperm, hperm.length_eq, hclasses.length_eq]

/-- Two files: one holds a class, one holds something else. -/
def sampleRead : ReadFile := fun file =>
  if file = "a/A.class" then .ok ClassFile.sampleClass.encode
  else if file = "a/B.class" then .ok [0xCA, 0xFE]
  else .error .notFound

/-- A target package. -/
def sampleOptions : Options := { targets := ["a"] }

theorem run_accounts_sample : sampleOptions.targets ≠ [] ∧ sampleOptions.askings = none ∧
    ∃ g result log', (run sampleRead sampleOptions { restricted := true } ["a/B.class", "a/A.class", "a/C.class"]).run [] =
        ((g, result), log') ∧
      Accounts sampleRead sampleOptions true ["a/B.class", "a/A.class", "a/C.class"] g result ∧
      ∃ g' result' log', (run sampleRead { sampleOptions with workers := 4 } { restricted := true }
          ["a/A.class", "a/B.class", "a/C.class"]).run [] = ((g', result'), log') ∧
        g.Agrees g' ∧ g.packages = g'.packages ∧ g.edges = g'.edges ∧ result = result' := by
  have htargets : sampleOptions.targets ≠ [] := List.cons_ne_nil _ _
  obtain ⟨g, result, log, hrun, haccounts, hperm⟩ :=
    run_accounts sampleRead htargets rfl true ["a/B.class", "a/A.class", "a/C.class"] []
  obtain ⟨g', result', log', hrun', hagrees, hpackages, hedges, hresult⟩ :=
    hperm 4 ["a/A.class", "a/B.class", "a/C.class"] [] (List.Perm.swap _ _ _)
  exact ⟨htargets, rfl, g, result, log, hrun, haccounts, g', result', log', hrun', hagrees, hpackages, hedges, hresult⟩

end Scan

end Coupling
