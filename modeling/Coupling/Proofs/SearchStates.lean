import Coupling.Cycles
import Coupling.SortedSet
import Mathlib.Data.List.Basic
import Mathlib.Logic.Relation

/-!
# States of a search

The classes that a search completes are cycles: classes of two or more packages that can be reached from each other. This
needs no look at the path that the search is on. A package is *done* when it was met and its class is complete, and from
packages that are done only such packages can be reached. So when the top of the stack is connected and no step leads from
it to what lies below, then it is a class, and it can be taken off.
-/

namespace Coupling

open Relation (ReflTransGen)

theorem increasing_mergeSort {α : Type} [LE α] [LT α] [DecidableLE α] [Std.IsLinearOrder α] [Std.LawfulOrderLT α]
    {l : List α} (h : l.Nodup) : l.mergeSort.Pairwise (· < ·) := by
  have hle : l.mergeSort.Pairwise fun a b => decide (a ≤ b) = true :=
    List.pairwise_mergeSort (fun a b c hab hbc => by simpa using Std.le_trans (by simpa using hab) (by simpa using hbc))
      (fun a b => by simpa using Std.le_total) l
  have hnodup : l.mergeSort.Nodup := (List.mergeSort_perm l _).nodup_iff.2 h
  refine (hle.and hnodup).imp fun {a b} hab => ?_
  exact Std.lt_of_le_of_ne (of_decide_eq_true hab.1) hab.2

/-- A class of packages that can be reached from each other: two or more, in order. -/
structure IsCycle (depends : Text → Text → Prop) (c : List Text) : Prop where
  two_le : 2 ≤ c.length
  increasing : c.Pairwise (· < ·)
  isClass : ∃ p, ∀ q, q ∈ c ↔ ReflTransGen depends p q ∧ ReflTransGen depends q p

namespace IsCycle

variable {depends : Text → Text → Prop} {c d : List Text} {p q : Text}

theorem exists_ne (h : IsCycle depends c) (p : Text) : ∃ q ∈ c, q ≠ p := by
  obtain ⟨htwo, hincreasing, -⟩ := h
  match c with
  | [] | [_] => simp at htwo
  | a :: b :: _ =>
    have hab : a < b := (List.pairwise_cons.1 hincreasing).1 b (by simp)
    by_cases hp : a = p
    · exact ⟨b, by simp, fun hb => Std.lt_irrefl (hb.trans hp.symm ▸ hab)⟩
    · exact ⟨a, by simp, hp⟩

theorem reaches (h : IsCycle depends c) (hp : p ∈ c) (hq : q ∈ c) : ReflTransGen depends p q := by
  obtain ⟨v, hv⟩ := h.isClass
  exact ((hv p).1 hp).2.trans ((hv q).1 hq).1

/-- Each package of a cycle depends on one of them. -/
theorem exists_next (h : IsCycle depends c) (hp : p ∈ c) : ∃ q, depends p q := by
  obtain ⟨q, hq, hne⟩ := h.exists_ne p
  obtain rfl | ⟨r, hr, -⟩ := (h.reaches hp hq).cases_head
  · exact absurd rfl hne
  · exact ⟨r, hr⟩

/-- On each package of a cycle one of them depends. -/
theorem exists_previous (h : IsCycle depends c) (hp : p ∈ c) : ∃ q, depends q p := by
  obtain ⟨q, hq, hne⟩ := h.exists_ne p
  obtain rfl | ⟨r, -, hr⟩ := (h.reaches hq hp).cases_tail
  · exact absurd rfl hne
  · exact ⟨r, hr⟩

theorem mem_iff (h : IsCycle depends c) (hp : p ∈ c) :
    q ∈ c ↔ ReflTransGen depends p q ∧ ReflTransGen depends q p := by
  refine ⟨fun hq => ⟨h.reaches hp hq, h.reaches hq hp⟩, fun hq => ?_⟩
  obtain ⟨v, hv⟩ := h.isClass
  exact (hv q).2 ⟨((hv p).1 hp).1.trans hq.1, hq.2.trans ((hv p).1 hp).2⟩

/-- Cycles that share a package are equal. -/
theorem eq_of_mem (h : IsCycle depends c) (h' : IsCycle depends d) (hc : p ∈ c) (hd : p ∈ d) : c = d :=
  SortedSet.eq_of_increasing h.increasing h'.increasing fun _ => (h.mem_iff hc).trans (h'.mem_iff hd).symm

end IsCycle

namespace Search

/-- A step from a package to the next. -/
def Steps (next : Text → List Text) (v w : Text) : Prop := w ∈ next v

/-- A way from a package to another. -/
def Leads (next : Text → List Text) : Text → Text → Prop := ReflTransGen (Steps next)

/-- The number of a package that was met. -/
def number (s : Search) (v : Text) : Nat := s.numbers.getD v 0

/-- The class of a package is complete. -/
def Done (s : Search) (v : Text) : Prop := v ∈ s.numbers ∧ v ∉ s.stack

/-- What holds throughout a search. -/
structure Sound (next : Text → List Text) (s : Search) : Prop where
  /-- What lies on the stack was met. -/
  met : ∀ v ∈ s.stack, v ∈ s.numbers
  /-- All numbers are below the next one. -/
  number_lt : ∀ v ∈ s.numbers, s.number v < s.count
  /-- Numbers fall from the top of the stack to its bottom. -/
  falling : s.stack.Pairwise fun v w => s.number w < s.number v
  /-- From packages that are done only such packages can be reached. -/
  closed : ∀ v w, s.Done v → w ∈ next v → s.Done w
  /-- The complete classes are cycles of packages that are done. -/
  isCycle : ∀ c ∈ s.classes, IsCycle (Steps next) c ∧ ∀ v ∈ c, s.Done v
  /-- They share no packages. -/
  disjoint : s.classes.Pairwise List.Disjoint
  /-- A package that is done and not alone in its class is in one of them. -/
  covered : ∀ v w, s.Done v → v ≠ w → Leads next v w → Leads next w v → ∃ c ∈ s.classes, v ∈ c

/-- From one state of a search to a later one: the packages that were met keep their numbers. -/
structure Grows (s s' : Search) : Prop where
  count_le : s.count ≤ s'.count
  met : ∀ v ∈ s.numbers, v ∈ s'.numbers
  number_eq : ∀ v ∈ s.numbers, s'.number v = s.number v

variable {next : Text → List Text} {s s' s'' : Search} {v w : Text} {low : Nat}

theorem Grows.refl (s : Search) : s.Grows s := ⟨Nat.le_refl _, fun _ hv => hv, fun _ _ => rfl⟩

theorem Grows.trans (h : s.Grows s') (h' : s'.Grows s'') : s.Grows s'' where
  count_le := Nat.le_trans h.count_le h'.count_le
  met v hv := h'.met v (h.met v hv)
  number_eq v hv := (h'.number_eq v (h.met v hv)).trans (h.number_eq v hv)

theorem number_of_getElem? {n : Nat} (h : s.numbers[v]? = some n) : v ∈ s.numbers ∧ s.number v = n := by
  obtain ⟨hv, rfl⟩ := Std.HashMap.getElem?_eq_some_iff.1 h
  exact ⟨hv, Std.HashMap.getElem_eq_getD.symm⟩

/-- Whatever can be reached from a package that is done is done. -/
theorem Sound.done_of_leads (h : Sound next s) (hv : s.Done v) (hw : Leads next v w) : s.Done w := by
  induction hw with
  | refl => exact hv
  | tail _ hstep ih => exact h.closed _ _ ih hstep

/-! ### Meeting a package -/

theorem mem_numbers_meet : w ∈ (s.meet v).numbers ↔ w = v ∨ w ∈ s.numbers := by
  rw [meet, Std.HashMap.mem_insert, beq_iff_eq, eq_comm]

theorem number_meet_self : (s.meet v).number v = s.count := Std.HashMap.getD_insert_self

theorem number_meet_of_ne (h : w ≠ v) : (s.meet v).number w = s.number w := by
  rw [number, meet, Std.HashMap.getD_insert, if_neg, number]
  simpa using h.symm

theorem grows_meet (hv : v ∉ s.numbers) : s.Grows (s.meet v) where
  count_le := Nat.le_succ s.count
  met _ hw := mem_numbers_meet.2 (.inr hw)
  number_eq _ hw := number_meet_of_ne (ne_of_mem_of_not_mem hw hv)

/-- A package that was just met is not done. -/
theorem done_meet : (s.meet v).Done w ↔ s.Done w ∧ w ≠ v := by
  rw [Done, mem_numbers_meet, meet, List.mem_cons, not_or, Done]
  grind

theorem Sound.meet (h : Sound next s) (hv : v ∉ s.numbers) : Sound next (s.meet v) := by
  have hne {w : Text} (hw : w ∈ s.numbers) : w ≠ v := ne_of_mem_of_not_mem hw hv
  have hdone {w : Text} : (s.meet v).Done w ↔ s.Done w := done_meet.trans (and_iff_left_of_imp fun hw => hne hw.1)
  refine ⟨fun w hw => ?_, fun w hw => ?_, ?_, ?_, ?_, h.disjoint, ?_⟩
  · exact mem_numbers_meet.2 ((List.mem_cons.1 hw).imp_right (h.met w))
  · rcases mem_numbers_meet.1 hw with rfl | hw
    · rw [number_meet_self]
      exact Nat.lt_succ_self s.count
    · rw [number_meet_of_ne (hne hw)]
      exact Nat.lt_succ_of_lt (h.number_lt w hw)
  · refine List.Pairwise.cons (fun w hw => ?_) (h.falling.imp_of_mem fun {u w} hu hw hlt => ?_)
    · rw [number_meet_self, number_meet_of_ne (hne (h.met w hw))]
      exact h.number_lt w (h.met w hw)
    · rw [number_meet_of_ne (hne (h.met u hu)), number_meet_of_ne (hne (h.met w hw))]
      exact hlt
  · simp only [hdone]
    exact h.closed
  · simp only [hdone]
    exact h.isCycle
  · simp only [hdone]
    exact h.covered

/-! ### Completing a class -/

theorem two_le_length {l : List Text} (hv : v ∈ l) (hw : w ∈ l) (hne : v ≠ w) : 2 ≤ l.length := by
  match l with
  | [] => cases hv
  | [_] =>
    rw [List.mem_singleton] at hv hw
    exact absurd (hv.trans hw.symm) hne
  | _ :: _ :: l => exact Nat.le_add_left 2 l.length

theorem Sound.nodup_stack (h : Sound next s) : s.stack.Nodup := by
  refine List.Pairwise.imp (fun {v w} hlt => ?_) h.falling
  rintro rfl
  exact Nat.lt_irrefl _ hlt

/-- The top of the stack, down to a package, is connected, and nothing below it is one step away. -/
structure IsTop (next : Text → List Text) (s : Search) (v : Text) (above below : List Text) : Prop where
  stack : s.stack = (above ++ [v]) ++ below
  leads : ∀ u ∈ above, Leads next v u ∧ Leads next u v
  next : ∀ u ∈ above ++ [v], ∀ w ∈ next u, w ∈ s.numbers ∧ w ∉ below

namespace IsTop

variable {above below : List Text}

theorem mem_stack (h : IsTop next s v above below) : w ∈ s.stack ↔ w ∈ above ++ [v] ∨ w ∈ below := by
  rw [h.stack, List.mem_append]

theorem nodup (h : IsTop next s v above below) (hs : Sound next s) :
    (above ++ [v]).Nodup ∧ ∀ w ∈ above ++ [v], w ∉ below := by
  have hnodup := hs.nodup_stack
  rw [h.stack, List.nodup_append] at hnodup
  exact ⟨hnodup.1, fun w hw hbelow => hnodup.2.2 w hw w hbelow rfl⟩

theorem complete_eq (h : IsTop next s v above below) (hs : Sound next s) : s.complete v = { s with
    stack := below
    classes := if 2 ≤ (above ++ [v]).length then s.classes ++ [(above ++ [v]).mergeSort] else s.classes } := by
  have hne : ∀ u ∈ above, decide (u ≠ v) = true := by
    intro u hu
    have hdisjoint := (List.nodup_append.1 (h.nodup hs).1).2.2
    exact decide_eq_true (hdisjoint u hu v (List.mem_singleton.2 rfl))
  have hmembers : s.stack.takeWhile (· ≠ v) ++ [v] = above ++ [v] := by
    rw [h.stack, List.append_assoc, List.takeWhile_append_of_pos hne]
    simp
  rw [complete, hmembers]
  simp only [h.stack, List.drop_left]

/-- It is the class of the package. -/
theorem mem_iff (h : IsTop next s v above below) (hs : Sound next s) :
    w ∈ above ++ [v] ↔ Leads next v w ∧ Leads next w v := by
  constructor
  · intro hw
    rcases List.mem_append.1 hw with hw | hw
    · exact h.leads w hw
    · rw [List.mem_singleton.1 hw]
      exact ⟨.refl, .refl⟩
  · rintro ⟨hway, hback⟩
    have hreach : s.Done w ∨ w ∈ above ++ [v] := by
      clear hback
      induction hway with
      | refl => exact .inr (by simp)
      | @tail u w _ hstep ih =>
        rcases ih with hu | hu
        · exact .inl (hs.closed u w hu hstep)
        · obtain ⟨hmet, hbelow⟩ := h.next u hu w hstep
          by_cases hw : w ∈ above ++ [v]
          · exact .inr hw
          · exact .inl ⟨hmet, fun hstack => (h.mem_stack.1 hstack).elim hw hbelow⟩
    -- From a package that is done no way leads back to the stack.
    refine hreach.resolve_left fun hdone => ?_
    exact (hs.done_of_leads hdone hback).2 (h.mem_stack.2 (.inl (by simp)))

theorem isCycle (h : IsTop next s v above below) (hs : Sound next s) (htwo : 2 ≤ (above ++ [v]).length) :
    IsCycle (Steps next) (above ++ [v]).mergeSort where
  two_le := by rwa [List.length_mergeSort]
  increasing := increasing_mergeSort (h.nodup hs).1
  isClass := ⟨v, fun w => List.mem_mergeSort.trans (h.mem_iff hs)⟩

/-- Nothing but its members comes to be done. -/
theorem done_complete (h : IsTop next s v above below) (hs : Sound next s) :
    (s.complete v).Done w ↔ s.Done w ∨ w ∈ above ++ [v] := by
  rw [h.complete_eq hs, Done, Done, h.mem_stack, not_or]
  constructor
  · rintro ⟨hw, hbelow⟩
    by_cases hmembers : w ∈ above ++ [v]
    · exact .inr hmembers
    · exact .inl ⟨hw, hmembers, hbelow⟩
  · rintro (⟨hw, -, hbelow⟩ | hw)
    · exact ⟨hw, hbelow⟩
    · exact ⟨hs.met w (h.mem_stack.2 (.inl hw)), (h.nodup hs).2 w hw⟩

theorem mem_classes_complete (h : IsTop next s v above below) (hs : Sound next s) {c : List Text} :
    c ∈ (s.complete v).classes ↔ c ∈ s.classes ∨ 2 ≤ (above ++ [v]).length ∧ c = (above ++ [v]).mergeSort := by
  rw [h.complete_eq hs]
  dsimp only
  split
  · next htwo => rw [List.mem_append, List.mem_singleton, and_iff_right htwo]
  · next htwo => rw [iff_false_intro htwo, false_and, or_false]

theorem disjoint_complete (h : IsTop next s v above below) (hs : Sound next s) :
    (s.complete v).classes.Pairwise List.Disjoint := by
  rw [h.complete_eq hs]
  dsimp only
  split
  · refine List.pairwise_append.2 ⟨hs.disjoint, List.pairwise_singleton _ _, fun c hc d hd w hw hw' => ?_⟩
    rw [List.mem_singleton.1 hd, List.mem_mergeSort] at hw'
    exact ((hs.isCycle c hc).2 w hw).2 (h.mem_stack.2 (.inl hw'))
  · exact hs.disjoint

theorem sound_complete (h : IsTop next s v above below) (hs : Sound next s) : Sound next (s.complete v) where
  met w hw := by
    rw [h.complete_eq hs] at hw ⊢
    exact hs.met w (h.mem_stack.2 (.inr hw))
  number_lt := by
    rw [h.complete_eq hs]
    exact hs.number_lt
  falling := by
    have hfalling := hs.falling
    rw [h.stack, List.pairwise_append] at hfalling
    rw [h.complete_eq hs]
    exact hfalling.2.1
  closed u w hu hw := by
    rcases (h.done_complete hs).1 hu with hu | hu
    · exact (h.done_complete hs).2 (.inl (hs.closed u w hu hw))
    · rw [h.complete_eq hs]
      exact h.next u hu w hw
  isCycle c hc := by
    rcases (h.mem_classes_complete hs).1 hc with hc | ⟨htwo, rfl⟩
    · obtain ⟨hcycle, hdone⟩ := hs.isCycle c hc
      exact ⟨hcycle, fun w hw => (h.done_complete hs).2 (.inl (hdone w hw))⟩
    · exact ⟨h.isCycle hs htwo, fun w hw => (h.done_complete hs).2 (.inr (List.mem_mergeSort.1 hw))⟩
  disjoint := h.disjoint_complete hs
  covered u w hu hne hway hback := by
    rcases (h.done_complete hs).1 hu with hu | hu
    · obtain ⟨c, hc, huc⟩ := hs.covered u w hu hne hway hback
      exact ⟨c, (h.mem_classes_complete hs).2 (.inl hc), huc⟩
    · obtain ⟨hvu, huv⟩ := (h.mem_iff hs).1 hu
      have hw : w ∈ above ++ [v] := (h.mem_iff hs).2 ⟨hvu.trans hway, hback.trans huv⟩
      exact ⟨_, (h.mem_classes_complete hs).2 (.inr ⟨two_le_length hu hw hne, rfl⟩), List.mem_mergeSort.2 hu⟩

theorem grows_complete (h : IsTop next s v above below) (hs : Sound next s) : s.Grows (s.complete v) := by
  rw [h.complete_eq hs]
  exact ⟨Nat.le_refl _, fun _ hw => hw, fun _ _ => rfl⟩

end IsTop

end Search

end Coupling
