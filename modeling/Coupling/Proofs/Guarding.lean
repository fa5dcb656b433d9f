import Coupling.Proofs.JsonReading
import Coupling.Report.Page

/-!
# Guarded data

The data of a page stand inside a script, where `</` would end it, so every `</` is written as `<\/`. A guarded text
holds no `</`. A JSON text stands for the same datum after guarding: `<` can only stand for itself inside a string, what
follows it there is a piece of its own, and a slash may be escaped.
-/

namespace Coupling.Page

open Datum

/-! ### Where guarding changes a text -/

theorem guardClosers_cons {c : CodePoint} {t : Text} (h : c ≠ '<' ∨ t.head? ≠ some ('/' : CodePoint)) :
    guardClosers (c :: t) = c :: guardClosers t := by
  cases t with
  | nil => rfl
  | cons d t =>
    refine if_neg ?_
    rintro ⟨rfl, rfl⟩
    simp at h

theorem guardClosers_closer (t : Text) :
    guardClosers ('<' :: '/' :: t) = ('<' : CodePoint) :: ('\\' : CodePoint) :: ('/' : CodePoint) :: guardClosers t := rfl

theorem head?_guardClosers (t : Text) : (guardClosers t).head? = t.head? := by
  fun_induction guardClosers t with
  | case1 => rfl
  | case2 => rfl
  | case3 c d t hcloser => exact congrArg some hcloser.1.symm
  | case4 => rfl

/-- Text before a place where no `</` can stand is guarded on its own. -/
theorem guardClosers_append (t : Text) {u : Text} (h : u.head? ≠ some ('/' : CodePoint)) :
    guardClosers (t ++ u) = guardClosers t ++ guardClosers u := by
  fun_induction guardClosers t with
  | case1 => rfl
  | case2 c => exact guardClosers_cons (.inr h)
  | case3 c d t hcloser ih =>
    obtain ⟨rfl, rfl⟩ := hcloser
    rw [List.cons_append, List.cons_append, guardClosers_closer, ih]
    rfl
  | case4 c d t hcloser ih =>
    rw [List.cons_append, List.cons_append, guardClosers, if_neg hcloser, ← List.cons_append, ih, List.cons_append]

theorem guardClosers_append_of_not_mem {t : Text} (h : ('<' : CodePoint) ∉ t) (u : Text) :
    guardClosers (t ++ u) = t ++ guardClosers u := by
  induction t with
  | nil => rfl
  | cons c t ih =>
    rw [List.mem_cons, not_or] at h
    rw [List.cons_append, guardClosers_cons (.inl (Ne.symm h.1)), ih h.2, List.cons_append]

theorem guardClosers_of_not_mem {t : Text} (h : ('<' : CodePoint) ∉ t) : guardClosers t = t := by
  have happend := guardClosers_append_of_not_mem h []
  rwa [List.append_nil, show guardClosers [] = [] from rfl, List.append_nil] at happend

/-- A guarded text holds no `</`. -/
theorem not_infix_guardClosers (t : Text) : ¬ Text.ofString "</" <:+: guardClosers t := by
  have hcloser : Text.ofString "</" = [('<' : CodePoint), '/'] := rfl
  rw [hcloser]
  fun_induction guardClosers t with
  | case1 => simp
  | case2 c => simp [List.infix_cons_iff]
  | case3 c d t _ ih =>
    have hguarded : Text.ofString "<\\/" ++ guardClosers t =
        ('<' : CodePoint) :: ('\\' : CodePoint) :: ('/' : CodePoint) :: guardClosers t := rfl
    rw [hguarded]
    simp [List.infix_cons_iff, ih]
  | case4 c d t hne ih =>
    rw [List.infix_cons_iff, not_or]
    refine ⟨?_, ih⟩
    intro h
    obtain ⟨rfl, hslash⟩ := List.cons_prefix_cons.1 h
    have hhead : (guardClosers (d :: t)).head? = some ('/' : CodePoint) := by
      obtain ⟨more, hmore⟩ := hslash
      rw [← hmore]
      rfl
    rw [head?_guardClosers] at hhead
    exact hne ⟨rfl, Option.some.inj hhead⟩

/-! ### Guarded JSON -/

theorem not_mem_of_isBlank {b : Text} (h : Blanks b) : ('<' : CodePoint) ∉ b := by
  intro hmem
  cases h _ hmem

theorem not_mem_of_inNumber {t : Text} (h : t.all inNumber = true) : ('<' : CodePoint) ∉ t := by
  intro hmem
  cases List.all_eq_true.1 h _ hmem

theorem head_blanks {b : Text} (h : Blanks b) {c : CodePoint} (hc : c ≠ '/') (t : Text) :
    (b ++ c :: t).head? ≠ some ('/' : CodePoint) := by
  cases b with
  | nil => simpa using hc
  | cons d b =>
    intro hd
    cases hd
    cases h _ List.mem_cons_self

/-- The digits of an escape are no `<`. -/
theorem not_mem_of_unit? {digits : Text} {c : CodePoint} (h : unit? digits = some c) : ('<' : CodePoint) ∉ digits := by
  obtain ⟨n, hn, -⟩ := Option.map_eq_some_iff.1 h
  obtain ⟨cs, hcs, hnumber⟩ := Option.bind_eq_some_iff.1 hn
  unfold Hex.number? at hnumber
  generalize 0 = start at hnumber
  clear h hn
  induction digits generalizing cs start with
  | nil => exact List.not_mem_nil
  | cons d digits ih =>
    rw [List.mapM_cons] at hcs
    obtain ⟨e, he, hcs⟩ := Option.bind_eq_some_iff.1 hcs
    obtain ⟨es, hes, heq⟩ := Option.bind_eq_some_iff.1 hcs
    cases heq
    rw [List.foldlM_cons] at hnumber
    obtain ⟨next, hnext, hnumber⟩ := Option.bind_eq_some_iff.1 hnumber
    rw [List.mem_cons, not_or]
    refine ⟨?_, ih es hes next hnumber⟩
    rintro rfl
    cases he
    cases hnext

theorem pieces_slash {t points : Text} (h : Pieces ('/' :: t) points) :
    ∃ points', points = ('/' : CodePoint) :: points' ∧ Pieces t points' := by
  generalize hbody : ('/' : CodePoint) :: t = body at h
  cases h with
  | nil => cases hbody
  | cons hpiece hrest =>
    cases hpiece with
    | plain =>
      cases hbody
      exact ⟨_, rfl, hrest⟩
    | short =>
      exfalso
      simp at hbody
    | numbered =>
      exfalso
      simp at hbody

/-- The pieces of a string stand for the same code points after guarding. -/
theorem pieces_guardClosers {body points : Text} (h : Pieces body points) : Pieces (guardClosers body) points := by
  induction h with
  | nil => exact .nil
  | @cons piece body points c hpiece hrest ih =>
    by_cases hcloser : piece = [('<' : CodePoint)] ∧ body.head? = some ('/' : CodePoint)
    · obtain ⟨rfl, hhead⟩ := hcloser
      obtain ⟨body, rfl⟩ := List.head?_eq_some_iff.1 hhead
      rw [guardClosers_cons (.inl (by simp))] at ih
      obtain ⟨points, rfl, hmore⟩ := pieces_slash ih
      have hslash : Piece [('\\' : CodePoint), '/'] ('/' : CodePoint) := .short (by decide)
      rw [List.singleton_append, guardClosers_closer]
      exact Pieces.cons hpiece (Pieces.cons hslash hmore)
    · have hguard : guardClosers (piece ++ body) = piece ++ guardClosers body := by
        cases hpiece with
        | plain =>
          apply guardClosers_cons
          by_cases hc : c = '<'
          · exact .inr fun hhead => hcloser ⟨by rw [hc], hhead⟩
          · exact .inl hc
        | @short e _ he =>
          apply guardClosers_append_of_not_mem
          have hne : e ≠ '<' := by
            rintro rfl
            have hnone : shorts.lookup ('<' : CodePoint) = none := by decide
            rw [hnone] at he
            cases he
          simpa using Ne.symm hne
        | numbered _ hunit =>
          apply guardClosers_append_of_not_mem
          simpa using not_mem_of_unit? hunit
      rw [hguard]
      exact .cons hpiece ih

theorem isString_guardClosers {t s : Text} (h : IsString t s) : IsString (guardClosers t) s := by
  obtain ⟨body, points, hpieces, rfl, rfl⟩ := h
  refine ⟨guardClosers body, points, pieces_guardClosers hpieces, ?_, rfl⟩
  rw [guardClosers_cons (.inl (by simp)), guardClosers_append body (by simp)]
  rfl

section

variable {α : Type} {Item : Text → α → Prop} {size : Nat}

theorem listed_guardClosers (hitem : ∀ t a, t.length ≤ size → Item t a → Item (guardClosers t) a) {u : Text} {items : List α}
    (h : Listed Item u items) (hsize : u.length ≤ size) : Listed Item (guardClosers u) items := by
  induction h with
  | @last b t b' a hb ha hb' =>
    simp only [List.length_append] at hsize
    have hhead : b'.head? ≠ some ('/' : CodePoint) := by
      intro hslash
      cases hb' _ (List.mem_of_mem_head? hslash)
    rw [guardClosers_append_of_not_mem (not_mem_of_isBlank hb), guardClosers_append t hhead,
      guardClosers_of_not_mem (not_mem_of_isBlank hb')]
    exact .last hb (hitem t a (by omega) ha) hb'
  | @more b t b' u a items hb ha hb' _ ih =>
    simp only [List.length_append, List.length_cons] at hsize
    rw [guardClosers_append_of_not_mem (not_mem_of_isBlank hb), guardClosers_append t (head_blanks hb' (by simp) u),
      guardClosers_append_of_not_mem (not_mem_of_isBlank hb'), guardClosers_cons (.inl (by simp))]
    exact .more hb (hitem t a (by omega) ha) hb' (ih (by omega))

theorem bracketed_guardClosers (hitem : ∀ t a, t.length ≤ size → Item t a → Item (guardClosers t) a)
    {opening closing : CodePoint} (hopening : opening ≠ '<') (hclosing : closing ≠ '/') {t : Text} {items : List α}
    (h : Bracketed opening closing Item t items) (hsize : t.length ≤ size + 1) :
    Bracketed opening closing Item (guardClosers t) items := by
  have hbrackets (u : Text) :
      guardClosers (opening :: (u ++ [closing])) = opening :: (guardClosers u ++ [closing]) := by
    rw [guardClosers_cons (.inl hopening), guardClosers_append u (by simpa using hclosing)]
    rfl
  cases h with
  | empty hb =>
    rw [hbrackets, guardClosers_of_not_mem (not_mem_of_isBlank hb)]
    exact .empty hb
  | full hlisted =>
    simp only [List.length_cons, List.length_append] at hsize
    rw [hbrackets]
    exact .full (listed_guardClosers hitem hlisted (by omega))

theorem member_guardClosers (hitem : ∀ t a, t.length ≤ size → Item t a → Item (guardClosers t) a) {t : Text} {a : Text × α}
    (h : Member Item t a) (hsize : t.length ≤ size) : Member Item (guardClosers t) a := by
  cases h with
  | @mk n b b' t name a hname hb hb' ha =>
    simp only [List.length_append, List.length_cons] at hsize
    rw [guardClosers_append n (head_blanks hb (by simp) _), guardClosers_append_of_not_mem (not_mem_of_isBlank hb),
      guardClosers_cons (.inl (by simp)), guardClosers_append_of_not_mem (not_mem_of_isBlank hb')]
    exact .mk (isString_guardClosers hname) hb hb' (hitem t a (by omega) ha)

end

/-- A JSON text stands for the same datum after guarding. -/
theorem spells_guardClosers {t : Text} {v : Datum} (h : Spells t v) : Spells (guardClosers t) v := by
  -- by the length of the text, since the items of a list or a record are shorter than the whole
  induction hsize : t.length using Nat.strongRecOn generalizing t v with
  | ind size ih =>
    have hpositive : 0 < t.length := by
      obtain ⟨c, t, rfl, -⟩ := h.begins
      simp
    have hitem : ∀ u w, u.length ≤ t.length - 1 → Spells u w → Spells (guardClosers u) w :=
      fun u w hu hspells => ih u.length (by omega) hspells rfl
    cases h with
    | word h =>
      have hwords : ∀ w ∈ words, ('<' : CodePoint) ∉ w.1 := by
        simp only [words, List.forall_mem_cons]
        decide
      rw [guardClosers_of_not_mem (hwords _ h)]
      exact .word h
    | number h =>
      rw [guardClosers_of_not_mem (not_mem_of_inNumber h.inNumber)]
      exact .number h
    | text h => exact .text (isString_guardClosers h)
    | list h => exact .list (bracketed_guardClosers hitem (by simp) (by simp) h (by omega))
    | record h =>
      have hmember : ∀ u a, u.length ≤ t.length - 1 → Member Spells u a → Member Spells (guardClosers u) a :=
        fun u a hu hspells => member_guardClosers hitem hspells hu
      exact .record (bracketed_guardClosers hmember (by simp) (by simp) h (by omega))

end Coupling.Page
