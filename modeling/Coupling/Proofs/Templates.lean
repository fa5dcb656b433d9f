import Coupling.Report.Template
import Mathlib.Data.List.Infix

/-!
# Filling templates

A text in which no dollar sign begins a placeholder is left as it is, whatever follows it, and a placeholder is replaced
by its value. Between them these two facts give the filled text of every template, piece by piece, and the values
themselves are not looked at.
-/

namespace Coupling.Template

variable {values : List (Text × Text)}

/-- What stands behind a dollar sign is no placeholder: a brace, and a name in it that does not reach to the end of it. -/
def isOther (t : Text) : Bool :=
  match t with
  | [] => false
  | c :: rest => c = '\x7b' && (rest.dropWhile continuesName).head?.any (· ≠ ('\x7d' : CodePoint))

/-- No dollar sign in a text begins a placeholder, whatever follows the text. -/
def isLiteral : Text → Bool
  | [] => true
  | c :: t => (c ≠ '$' || isOther t) && isLiteral t

theorem continuesName_of_startsName {c : CodePoint} (h : startsName c = true) : continuesName c = true := by
  simp [continuesName, h]

/-- The name at the front of a text ends where a code point stands that cannot be part of one. -/
theorem name_append {n t : Text} (hstart : n.head?.any startsName = true) (hname : n.all continuesName = true)
    (ht : t.head?.any continuesName = false) : name (n ++ t) = n := by
  cases n with
  | nil => cases hstart
  | cons c n =>
    have hrest : t.takeWhile continuesName = [] := by
      cases t with
      | nil => rfl
      | cons d t => exact List.takeWhile_cons_of_neg (by simpa using ht)
    have hfront : (c :: n ++ t).head?.any startsName = true := hstart
    rw [name, if_pos hfront, List.takeWhile_append_of_pos (List.all_eq_true.1 hname), hrest, List.append_nil]

theorem replacement?_of_isOther {t : Text} (h : isOther t = true) (u : Text) : replacement? values (t ++ u) = none := by
  cases t with
  | nil => cases h
  | cons c rest =>
    simp only [isOther, Bool.and_eq_true, decide_eq_true_eq, Option.any_eq_true] at h
    obtain ⟨rfl, d, hd, hne⟩ := h
    obtain ⟨more, hmore⟩ := List.head?_eq_some_iff.1 hd
    have hd' : continuesName d = false := by
      have hnot := List.head?_dropWhile_not continuesName rest
      rw [hmore] at hnot
      exact hnot
    have hrun : (rest.takeWhile continuesName).all continuesName = true := List.all_takeWhile
    have hrest : rest = rest.takeWhile continuesName ++ d :: more := by
      rw [← hmore, List.takeWhile_append_dropWhile]
    generalize rest.takeWhile continuesName = n at hrest hrun
    -- the brace does not follow the name, whether the name is the whole run or nothing
    have hbrace : (rest ++ u)[(name (rest ++ u)).length]? ≠ some ('\x7d' : CodePoint) := by
      rw [hrest, List.append_assoc]
      by_cases hstart : n.head?.any startsName = true
      · rw [name_append hstart hrun (by simp [hd']), List.getElem?_append_right (Nat.le_refl _)]
        simpa using hne
      · cases n with
        | nil =>
          have hnone : name (d :: more ++ u) = [] := by
            refine if_neg fun hstarts => ?_
            rw [continuesName_of_startsName hstarts] at hd'
            cases hd'
          rw [List.nil_append, hnone]
          simpa using hne
        | cons e n =>
          have hnone : name (e :: n ++ (d :: more ++ u)) = [] := if_neg hstart
          have he : continuesName e = true := List.all_eq_true.1 hrun e List.mem_cons_self
          rw [hnone]
          intro hbrace
          cases hbrace
          cases he
    rw [List.cons_append, replacement?]
    simp only [if_neg hbrace]
    rfl

theorem isOther_append {t : Text} (h : isOther t = true) (u : Text) : isOther (t ++ u) = true := by
  cases t with
  | nil => cases h
  | cons c rest =>
    simp only [List.cons_append, isOther, Bool.and_eq_true, Option.any_eq_true] at h ⊢
    obtain ⟨hc, d, hd, hne⟩ := h
    refine ⟨hc, d, ?_, hne⟩
    rw [List.dropWhile_append]
    split
    · next hempty =>
      rw [List.isEmpty_iff.1 hempty] at hd
      cases hd
    · rw [List.head?_append, hd]
      rfl

theorem isLiteral_append {s t : Text} (hs : isLiteral s = true) (ht : isLiteral t = true) : isLiteral (s ++ t) = true := by
  induction s with
  | nil => exact ht
  | cons c s ih =>
    simp only [List.cons_append, isLiteral, Bool.and_eq_true, Bool.or_eq_true] at hs ⊢
    exact ⟨hs.1.imp_right fun h => isOther_append h t, ih hs.2⟩

/-- A text without placeholders is left as it is. -/
theorem fill_append {s : Text} (h : isLiteral s = true) (t : Text) : fill values (s ++ t) = s ++ fill values t := by
  unfold fill
  induction s with
  | nil => rfl
  | cons c s ih =>
    simp only [isLiteral, Bool.and_eq_true, Bool.or_eq_true, decide_eq_true_eq] at h
    obtain ⟨hc, hs⟩ := h
    rw [List.cons_append, fillFrom, ih hs]
    split
    · next hdollar =>
      rw [replacement?_of_isOther (hc.resolve_left fun hne => hne hdollar)]
      rfl
    · rfl

theorem fillFrom_append (s t : Text) : fillFrom values s.length (s ++ t) = fillFrom values 0 t := by
  induction s with
  | nil => rfl
  | cons c s ih => exact ih

/-- A placeholder is replaced by its value, and filling goes on behind it. -/
theorem fill_placeholder {n value t : Text} (hstart : n.head?.any startsName = true) (hname : n.all continuesName = true)
    (ht : t.head?.any continuesName = false) (hvalue : values.lookup n = some value) :
    fill values ('$' :: (n ++ t)) = value ++ fill values t := by
  have hreplacement : replacement? values (n ++ t) = some (value, n.length) := by
    have heq := name_append hstart hname ht
    cases n with
    | nil => cases hstart
    | cons c n =>
      have hdollar : c ≠ '$' := by
        rintro rfl
        cases hstart
      have hbrace : c ≠ '\x7b' := by
        rintro rfl
        cases hstart
      rw [List.cons_append] at heq ⊢
      simp only [replacement?, if_neg hdollar, if_neg hbrace, heq, hvalue, Option.map_some]
  unfold fill
  rw [fillFrom, if_pos rfl, hreplacement]
  exact congrArg (value ++ ·) (fillFrom_append n t)

/-- A text without placeholders holds no name behind a dollar sign. -/
theorem not_infix_of_isLiteral {n t : Text} (hstart : n.head?.any startsName = true) (h : isLiteral t = true) :
    ¬ (('$' : CodePoint) :: n) <:+: t := by
  induction t with
  | nil => simp
  | cons c t ih =>
    simp only [isLiteral, Bool.and_eq_true, Bool.or_eq_true, decide_eq_true_eq] at h
    rw [List.infix_cons_iff, not_or]
    refine ⟨?_, ih h.2⟩
    intro hfront
    obtain ⟨rfl, hn⟩ := List.cons_prefix_cons.1 hfront
    have hother : isOther t = true := h.1.resolve_left fun hne => hne rfl
    obtain ⟨more, rfl⟩ := hn
    cases n with
    | nil => cases hstart
    | cons d n =>
      simp only [List.cons_append, isOther, Bool.and_eq_true, decide_eq_true_eq] at hother
      rw [hother.1] at hstart
      cases hstart

end Coupling.Template
