import Coupling.Analysis.Failure
import Coupling.Proofs.Scanning

/-!
# What attempts come to

An attempt writes to the log on the way, but what it comes to never depends on what the log holds. The rules here take an
attempt apart along its steps. They say when it has a result or fails in a way that is wanted, for instance with a report:
this is so under a condition that is put together from the conditions of the steps that are reached.
-/

namespace Coupling

namespace Attempt

variable {ε α β : Type} {x : Attempt ε α} {k : α → Attempt ε β} {r : Except ε α} {P : Except ε α → Prop}

/-- What an attempt comes to, whatever the log holds. -/
def Ends (x : Attempt ε α) (r : Except ε α) : Prop := Logged.Gives x.run r

protected theorem Ends.pure (a : α) : Ends (pure a : Attempt ε α) (.ok a) := Logged.Gives.pure _

protected theorem Ends.throw (e : ε) : Ends (throw e : Attempt ε α) (.error e) := Logged.Gives.pure _

theorem ends_of (r : Except ε α) : Ends (Attempt.of r) r := Logged.Gives.pure _

theorem ends_say (level : Level) (text : Text) : Ends (Logged.say level text : Attempt ε Unit) (.ok ()) :=
  fun _ => ⟨_, rfl⟩

theorem ends_lift {y : Logged α} {a : α} (h : Logged.Gives y a) : Ends (liftM y : Attempt ε α) (.ok a) := by
  intro log
  obtain ⟨log', hrun⟩ := h log
  exact ⟨log', congrArg (fun r : α × Log => (Except.ok r.1, r.2)) hrun⟩

protected theorem Ends.bind {a : α} {r : Except ε β} (hx : Ends x (.ok a)) (hk : Ends (k a) r) : Ends (x >>= k) r :=
  Logged.Gives.bind (k := ExceptT.bindCont k) hx hk

/-- After a failure nothing more is done. -/
theorem Ends.bind_error {e : ε} (hx : Ends x (.error e)) : Ends (x >>= k) (.error e) :=
  Logged.Gives.bind (k := ExceptT.bindCont k) hx (.pure _)

/-- An attempt comes to one thing only. -/
theorem Ends.unique {r' : Except ε α} (h : Ends x r) (h' : Ends x r') : r = r' := Logged.Gives.unique h h'

/-- A run of an attempt shows what it comes to. -/
theorem Ends.eq_of_run {r' : Except ε α} {log log' : Log} (h : Ends x r) (hrun : x.run.run log = (r', log')) : r' = r := by
  obtain ⟨log₁, h₁⟩ := h log
  rw [hrun] at h₁
  exact congrArg Prod.fst h₁

/-- What an attempt comes to can be found by a run. -/
theorem Ends.of_run {r' : Except ε α} (h : Ends x r) (hrun : (x.run.run []).1 = r') : Ends x r' := by
  have heq : (x.run.run []).1 = r := h.eq_of_run rfl
  rwa [← hrun, heq]

/-- An attempt comes to something that satisfies a condition. -/
def EndsIn (x : Attempt ε α) (P : Except ε α → Prop) : Prop := ∃ r, Ends x r ∧ P r

theorem Ends.endsIn_iff (h : Ends x r) : EndsIn x P ↔ P r := by
  constructor
  · rintro ⟨r', h', hP⟩
    rwa [h.unique h']
  · intro hP
    exact ⟨r, h, hP⟩

/-! ### Failures of a kind -/

/-- There is a result, or a failure of a kind. -/
def Within (kind : ε → Prop) : Except ε α → Prop
  | .ok _ => True
  | .error e => kind e

/-- An attempt comes to something, and this is a result or a failure of a kind exactly under a condition. -/
def Decides (kind : ε → Prop) (x : Attempt ε α) (c : Prop) : Prop := ∃ r, Ends x r ∧ (Within kind r ↔ c)

variable {kind : ε → Prop} {c c' : Prop}

theorem Ends.decides {a : α} (h : Ends x (.ok a)) : Decides kind x True := ⟨_, h, Iff.rfl⟩

theorem decides_throw (e : ε) : Decides kind (throw e : Attempt ε α) (kind e) := ⟨_, .throw e, Iff.rfl⟩

theorem Decides.congr (h : Decides kind x c) (hc : c ↔ c') : Decides kind x c' := by
  obtain ⟨r, hr, hiff⟩ := h
  exact ⟨r, hr, hiff.trans hc⟩

/-- What such an attempt comes to can be found by a run. -/
theorem Decides.ends_of_run (h : Decides kind x c) (hrun : (x.run.run []).1 = r) : Ends x r := by
  obtain ⟨_, hr, -⟩ := h
  exact hr.of_run hrun

theorem Decides.within_iff (h : Decides kind x c) (hr : Ends x r) : Within kind r ↔ c := by
  obtain ⟨r', hr', hiff⟩ := h
  rwa [hr.unique hr']

theorem Decides.endsIn_iff (h : Decides kind x c) : EndsIn x (Within kind) ↔ c := by
  obtain ⟨r, hr, hiff⟩ := h
  rw [hr.endsIn_iff, hiff]

/-- An attempt meets the conditions of its first step, and, if this has a result, of those after it. -/
protected theorem Decides.bind {d : α → Prop} (hx : Decides kind x c)
    (hk : ∀ a, Ends x (.ok a) → Decides kind (k a) (d a)) :
    Decides kind (x >>= k) (c ∧ ∀ a, Ends x (.ok a) → d a) := by
  obtain ⟨r, hr, hc⟩ := hx
  cases r with
  | error e =>
    have hnone (a : α) : ¬Ends x (.ok a) := by
      intro ha
      cases hr.unique ha
    refine ⟨_, hr.bind_error, ?_⟩
    rw [and_iff_left fun a ha => absurd ha (hnone a)]
    exact hc
  | ok a =>
    obtain ⟨r', hr', hd⟩ := hk a hr
    refine ⟨r', hr.bind hr', ?_⟩
    rw [and_iff_right (hc.1 trivial), hd]
    constructor
    · intro h a' ha'
      rwa [← Except.ok.inj (hr.unique ha')]
    · intro h
      exact h a hr

/-- The condition of a step after one that has a known result. -/
theorem Ends.bind_decides {a : α} (hx : Ends x (.ok a)) (hk : Decides kind (k a) c) : Decides kind (x >>= k) c := by
  obtain ⟨r, hr, hc⟩ := hk
  exact ⟨r, hx.bind hr, hc⟩

end Attempt

/-! ### Failures without a report -/

/-- A failure that is reported. -/
def Failure.Reported (f : Failure) : Prop := f.report? ≠ none

/-- An outcome is a certain value exactly under a condition, and otherwise a failure that is not reported. -/
def Settles {α : Type} (r : Except Failure α) (c : Prop) (a : α) : Prop :=
  c ∧ r = .ok a ∨ ¬c ∧ ∃ f, r = .error f ∧ ¬f.Reported

namespace Settles

variable {α β : Type} {r : Except Failure α} {k : α → Except Failure β} {a : α} {b : β} {c c' d : Prop}

protected theorem ok (a : α) : Settles (.ok a) True a := .inl ⟨trivial, rfl⟩

theorem congr (h : Settles r c a) (hc : c ↔ c') : Settles r c' a := by
  unfold Settles at h ⊢
  rwa [← hc]

/-- The value matters only under the condition. -/
theorem congr_value {a' : α} (h : Settles r c a) (ha : c → a = a') : Settles r c a' := by
  obtain ⟨hc, hr⟩ | hfail := h
  · rw [ha hc] at hr
    exact .inl ⟨hc, hr⟩
  · exact .inr hfail

protected theorem bind (hr : Settles r c a) (hk : Settles (k a) d b) : Settles (r >>= k) (c ∧ d) b := by
  obtain ⟨hc, rfl⟩ | ⟨hc, f, rfl, hf⟩ := hr
  · obtain ⟨hd, hb⟩ | ⟨hd, f, hb, hf⟩ := hk
    · exact .inl ⟨⟨hc, hd⟩, hb⟩
    · exact .inr ⟨fun h => hd h.2, f, hb, hf⟩
  · exact .inr ⟨fun h => hc h.1, f, rfl, hf⟩

/-- Outcomes one after the other. -/
protected theorem mapM {f : α → Except Failure β} {c : α → Prop} {v : α → β} {l : List α}
    (h : ∀ a ∈ l, Settles (f a) (c a) (v a)) : Settles (l.mapM f) (∀ a ∈ l, c a) (l.map v) := by
  induction l with
  | nil => exact (Settles.ok _).congr (by simp)
  | cons a l ih =>
    have hrest := ih fun b hb => h b (List.mem_cons_of_mem a hb)
    rw [List.mapM_cons]
    refine ((h a List.mem_cons_self).bind (hrest.bind (k := fun bs => .ok (v a :: bs)) (Settles.ok _))).congr ?_
    simp

end Settles

namespace Attempt

variable {α β : Type} {x : Attempt Failure α} {k : α → Attempt Failure β} {a : α} {b : β} {c c' d : Prop}

/-- An attempt gives a certain value exactly under a condition, and otherwise fails without a report. -/
def Yields (x : Attempt Failure α) (c : Prop) (a : α) : Prop := ∃ r, Ends x r ∧ Settles r c a

theorem yields_of {r : Except Failure α} (h : Settles r c a) : Yields (Attempt.of r) c a := ⟨r, ends_of r, h⟩

theorem Ends.yields (h : Ends x (.ok a)) : Yields x True a := ⟨_, h, .ok a⟩

theorem Yields.congr (h : Yields x c a) (hc : c ↔ c') : Yields x c' a := by
  obtain ⟨r, hr, hsettles⟩ := h
  exact ⟨r, hr, hsettles.congr hc⟩

theorem Yields.ends_of_run {r : Except Failure α} (h : Yields x c a) (hrun : (x.run.run []).1 = r) : Ends x r := by
  obtain ⟨_, hr, -⟩ := h
  exact hr.of_run hrun

protected theorem Yields.bind (hx : Yields x c a) (hk : Yields (k a) d b) : Yields (x >>= k) (c ∧ d) b := by
  obtain ⟨_, hr, ⟨hc, rfl⟩ | ⟨hc, f, rfl, hf⟩⟩ := hx
  · obtain ⟨r, hr', hd⟩ := hk
    exact ⟨r, hr.bind hr', hd.congr (and_iff_right hc).symm⟩
  · exact ⟨_, hr.bind_error, .inr ⟨fun h => hc h.1, f, rfl, hf⟩⟩

/-- An attempt that has a result gives the certain value. -/
theorem Yields.eq_of_ends {a' : α} (h : Yields x c a) (ha' : Ends x (.ok a')) : c ∧ a' = a := by
  obtain ⟨_, hr, ⟨hc, rfl⟩ | ⟨-, f, rfl, -⟩⟩ := h
  · exact ⟨hc, Except.ok.inj (ha'.unique hr)⟩
  · cases ha'.unique hr

theorem Yields.ends_iff (h : Yields x c a) : Ends x (.ok a) ↔ c := by
  constructor
  · intro ha
    exact (h.eq_of_ends ha).1
  · intro hc
    obtain ⟨_, hr, ⟨-, rfl⟩ | ⟨hc', -⟩⟩ := h
    · exact hr
    · exact absurd hc hc'

theorem Yields.decides {kind : Failure → Prop} (hkind : ∀ f, kind f → f.Reported) (h : Yields x c a) :
    Decides kind x c := by
  obtain ⟨_, hr, ⟨hc, rfl⟩ | ⟨hc, f, rfl, hf⟩⟩ := h
  · exact ⟨_, hr, iff_of_true trivial hc⟩
  · exact ⟨_, hr, iff_of_false (fun h => hf (hkind f h)) hc⟩

theorem Yields.bind_decides {kind : Failure → Prop} (hkind : ∀ f, kind f → f.Reported) (hx : Yields x c a)
    (hk : Decides kind (k a) d) : Decides kind (x >>= k) (c ∧ d) := by
  obtain ⟨_, hr, ⟨hc, rfl⟩ | ⟨hc, f, rfl, hf⟩⟩ := hx
  · exact (hr.bind_decides hk).congr (and_iff_right hc).symm
  · exact ⟨_, hr.bind_error, iff_of_false (fun h => hf (hkind f h)) fun h => hc h.1⟩

end Attempt

end Coupling
