import Coupling.Proofs.CodeUnits
import Coupling.Proofs.Numerals
import Coupling.Report.Json
import Mathlib.Data.List.Chain

/-!
# Writing JSON

What is written from a value stands for that value, on one line and over several lines alike. Every code point of a text
is written as itself, as a short escape or by its number, and a code point beyond the first plane as the two halves of a
pair. Reading joins the halves again, and joins nothing else as long as no text holds a high half right before a low one.
-/

namespace Coupling

open ModifiedUtf8 (joinPairs joinPairs_pair joinPairs_single ofNat_of_val val_ofNat)
open Datum

/-! ### Halves of pairs -/

/-- No high half of a pair stands right before a low one. -/
def Text.Unpaired (t : Text) : Prop := t.IsChain fun c d => ¬ (c.IsHigh ∧ d.IsLow)

instance (t : Text) : Decidable t.Unpaired := inferInstanceAs (Decidable (List.IsChain _ _))

/-- Characters are no halves of pairs. -/
theorem Text.unpaired_ofString (s : String) : (Text.ofString s).Unpaired := by
  have hhigh (c : Char) : ¬ (CodePoint.ofChar c).IsHigh := by
    have hvalid := c.valid
    simp only [UInt32.isValidChar, Nat.isValidChar] at hvalid
    simp only [CodePoint.IsHigh, CodePoint.ofChar, Char.toNat]
    omega
  unfold Text.ofString
  induction s.toList with
  | nil => exact .nil
  | cons c cs ih =>
    rw [List.map_cons]
    exact ih.cons fun d _ h => hhigh c h.1

namespace Json

/-- The code points that a code point is written by: itself, or the two halves of a pair. -/
def halves (c : CodePoint) : Text :=
  if c.val < 0x10000 then [c]
  else [.ofNat (0xD800 + (c.val - 0x10000) / 0x400), .ofNat (0xDC00 + (c.val - 0x10000) % 0x400)]

/-- Halves that are written are joined again, and nothing else is. -/
theorem joinPairs_halves {t : Text} (h : t.Unpaired) : joinPairs (t.flatMap halves) = t := by
  induction t with
  | nil => rfl
  | cons c t ih =>
    obtain ⟨hnext, hrest⟩ := List.isChain_cons.1 h
    rw [List.flatMap_cons, halves]
    split
    · have hsingle : c.IsHigh → ∀ d ∈ (t.flatMap halves).head?, ¬ d.IsLow := by
        intro hc d hd hlow
        cases t with
        | nil => cases hd
        | cons e t =>
          rw [List.flatMap_cons, halves] at hd
          split at hd
          · cases hd
            exact hnext d rfl ⟨hc, hlow⟩
          · next he =>
            cases hd
            have hlt := e.isLt
            rw [CodePoint.IsLow, val_ofNat (by omega)] at hlow
            omega
      rw [List.singleton_append, joinPairs_single hsingle, ih hrest]
    · next hc =>
      have hlt := c.isLt
      have hhigh : (CodePoint.ofNat (0xD800 + (c.val - 0x10000) / 0x400)).IsHigh := by
        rw [CodePoint.IsHigh, val_ofNat (by omega)]
        omega
      have hlow : (CodePoint.ofNat (0xDC00 + (c.val - 0x10000) % 0x400)).IsLow := by
        rw [CodePoint.IsLow, val_ofNat (by omega)]
        omega
      have hpair : ModifiedUtf8.pair (.ofNat (0xD800 + (c.val - 0x10000) / 0x400))
          (.ofNat (0xDC00 + (c.val - 0x10000) % 0x400)) = c := by
        apply ofNat_of_val
        rw [val_ofNat (by omega), val_ofNat (by omega)]
        omega
      rw [List.cons_append, List.singleton_append, joinPairs_pair hhigh hlow, hpair, ih hrest]

/-! ### Escapes -/

/-- Hexadecimal digits are read back. -/
theorem number?_toDigits (n : Nat) : Hex.number? (Nat.toDigits 16 n) = some n := by
  have hvalue : ∀ d < 16, Hex.value? d.digitChar = some d := by decide
  induction n using Nat.strongRecOn with
  | ind n ih =>
    by_cases hlt : n < 16
    · rw [Nat.toDigits_of_lt_base hlt]
      simp [Hex.number?, hvalue n hlt]
    · have hlast := hvalue (n % 16) (by omega)
      have hfront := ih (n / 16) (by omega)
      rw [Nat.toDigits_of_base_le (by decide) (by omega)]
      unfold Hex.number? at hfront ⊢
      rw [List.foldlM_append, hfront]
      simp [hlast]
      omega

theorem number?_replicate (k : Nat) (cs : List Char) : Hex.number? (List.replicate k '0' ++ cs) = Hex.number? cs := by
  induction k with
  | zero => rfl
  | succ k ih => exact ih

theorem mapM_toChar? (cs : List Char) : (cs.map CodePoint.ofChar).mapM CodePoint.toChar? = some cs := by
  induction cs with
  | nil => rfl
  | cons c cs ih =>
    have hc : (CodePoint.ofChar c).toChar? = some c := dif_pos c.valid
    rw [List.map_cons, List.mapM_cons, hc, ih]
    rfl

/-- An escape by number stands for the code point of that number. -/
theorem piece_numbered {n : Nat} (h : n < 0x10000) : Piece (numbered n) (.ofNat n) := by
  have hle : (Nat.toDigits 16 n).length ≤ 4 := (Nat.length_toDigits_le_iff (by decide) (by decide)).2 h
  have hlength : (Text.ofString (Hex.digits 4 n)).length = 4 := by
    unfold Hex.digits
    rw [ofString_ofList]
    simp
    omega
  have hunit : unit? (Text.ofString (Hex.digits 4 n)) = some (.ofNat n) := by
    unfold Hex.digits
    rw [ofString_ofList, unit?, mapM_toChar?, Option.bind_some, number?_replicate, number?_toDigits]
    rfl
  have hfront : Text.ofString "\\u" = [('\\' : CodePoint), 'u'] := rfl
  rw [numbered, hfront, List.cons_append, List.singleton_append]
  exact .numbered hlength hunit

theorem Pieces.single {piece : Text} {c : CodePoint} (h : Piece piece c) : Pieces piece [c] := by
  have hcons := Pieces.cons h .nil
  rwa [List.append_nil] at hcons

theorem Pieces.append {body body' points points' : Text} (h : Pieces body points) (h' : Pieces body' points') :
    Pieces (body ++ body') (points ++ points') := by
  induction h with
  | nil => exact h'
  | cons hpiece _ ih =>
    rw [List.append_assoc]
    exact .cons hpiece ih

/-- The four ways to write a code point. -/
theorem escaped_cases (c : CodePoint) :
    (∃ e, escaped c = [('\\' : CodePoint), e] ∧ shorts.lookup e = some c ∧ c.val ≤ 0x7E ∧ 0x20 ≤ e.val ∧ e.val ≤ 0x7E) ∨
    (escaped c = [c] ∧ c ≠ '"' ∧ c ≠ '\\' ∧ 0x20 ≤ c.val ∧ c.val ≤ 0x7E) ∨
    (escaped c = numbered c.val ∧ c.val < 0x10000) ∨
    (escaped c = numbered (0xD800 + (c.val - 0x10000) / 0x400) ++ numbered (0xDC00 + (c.val - 0x10000) % 0x400) ∧
      ¬ c.val < 0x10000) := by
  by_cases hquote : c = '"'
  · subst hquote
    exact .inl ⟨'"', rfl, by decide⟩
  by_cases hback : c = '\\'
  · subst hback
    exact .inl ⟨'\\', rfl, by decide⟩
  by_cases hline : c = '\n'
  · subst hline
    exact .inl ⟨'n', rfl, by decide⟩
  by_cases hreturn : c = '\r'
  · subst hreturn
    exact .inl ⟨'r', rfl, by decide⟩
  by_cases htab : c = '\t'
  · subst htab
    exact .inl ⟨'t', rfl, by decide⟩
  by_cases hbell : c.val = 0x08
  · obtain rfl : c = '\x08' := CodePoint.ext_val hbell
    exact .inl ⟨'b', rfl, by decide⟩
  by_cases hfeed : c.val = 0x0C
  · obtain rfl : c = '\x0c' := CodePoint.ext_val hfeed
    exact .inl ⟨'f', rfl, by decide⟩
  rw [escaped, if_neg hquote, if_neg hback, if_neg hline, if_neg hreturn, if_neg htab, if_neg hbell, if_neg hfeed]
  by_cases hplain : 0x20 ≤ c.val ∧ c.val ≤ 0x7E
  · exact .inr (.inl ⟨if_pos hplain, hquote, hback, hplain⟩)
  rw [if_neg hplain]
  by_cases hplane : c.val < 0x10000
  · exact .inr (.inr (.inl ⟨if_pos hplane, hplane⟩))
  · exact .inr (.inr (.inr ⟨if_neg hplane, hplane⟩))

theorem pieces_escaped (c : CodePoint) : Pieces (escaped c) (halves c) := by
  have hlt := c.isLt
  rcases escaped_cases c with ⟨e, hc, he, hval, -⟩ | ⟨hc, hquote, hback, hlo, hhi⟩ | ⟨hc, hval⟩ | ⟨hc, hval⟩
  · rw [hc, halves, if_pos (by omega)]
    exact Pieces.single (.short he)
  · rw [hc, halves, if_pos (by omega)]
    exact Pieces.single (.plain hquote hback hlo)
  · have hpiece := piece_numbered hval
    rw [ofNat_of_val rfl] at hpiece
    rw [hc, halves, if_pos hval]
    exact Pieces.single hpiece
  · rw [hc, halves, if_neg hval]
    exact Pieces.append (Pieces.single (piece_numbered (by omega))) (Pieces.single (piece_numbered (by omega)))

/-- A text between quotes. -/
theorem isString_quoted {t : Text} (h : t.Unpaired) : IsString (quoted t) t := by
  have hpieces : Pieces (t.flatMap escaped) (t.flatMap halves) := by
    clear h
    induction t with
    | nil => exact .nil
    | cons c t ih =>
      rw [List.flatMap_cons, List.flatMap_cons]
      exact Pieces.append (pieces_escaped c) ih
  refine ⟨t.flatMap escaped, t.flatMap halves, hpieces, ?_, (joinPairs_halves h).symm⟩
  rw [quoted, List.append_assoc]
  rfl

/-! ### Values -/

mutual

/-- The datum of a value. A number of the floating-point format is told by its text. -/
def datum : Json → Datum
  | .text t => .text t
  | .count n => .integer n
  | .decimal x => .decimal (Decimal.text x)
  | .list items => .list (data items)
  | .record fields => .record (namedData fields)

/-- The data of the values in a list. -/
def data : List Json → List Datum
  | [] => []
  | v :: vs => v.datum :: data vs

/-- The data of named values. -/
def namedData : List (String × Json) → List (Text × Datum)
  | [] => []
  | (name, v) :: rest => (name, v.datum) :: namedData rest

end

mutual

/-- The texts in a value. -/
def leaves : Json → List Text
  | .text t => [t]
  | .count _ => []
  | .decimal _ => []
  | .list items => leavesOfAll items
  | .record fields => leavesOfFields fields

/-- The texts in the values of a list. -/
def leavesOfAll : List Json → List Text
  | [] => []
  | v :: vs => v.leaves ++ leavesOfAll vs

/-- The texts in named values. -/
def leavesOfFields : List (String × Json) → List Text
  | [] => []
  | (_, v) :: rest => v.leaves ++ leavesOfFields rest

end

theorem data_eq_map (items : List Json) : data items = items.map datum := by
  induction items with
  | nil => rfl
  | cons v vs ih => rw [data, ih, List.map_cons]

theorem namedData_eq_map (fields : List (String × Json)) :
    namedData fields = fields.map fun f => (Text.ofString f.1, f.2.datum) := by
  induction fields with
  | nil => rfl
  | cons f fields ih => rw [namedData, ih, List.map_cons]

theorem lines_eq_map (items : List Json) : lines items = items.map line := by
  induction items with
  | nil => rfl
  | cons v vs ih => rw [lines, ih, List.map_cons]

theorem fieldLines_eq_map (fields : List (String × Json)) :
    fieldLines fields = fields.map fun f => quoted f.1 ++ ": " ++ f.2.line := by
  induction fields with
  | nil => rfl
  | cons f fields ih => rw [fieldLines, ih, List.map_cons]

theorem indentedAll_eq_map (level : Nat) (items : List Json) : indentedAll level items = items.map (indented level) := by
  induction items with
  | nil => rfl
  | cons v vs ih => rw [indentedAll, ih, List.map_cons]

theorem indentedFields_eq_map (level : Nat) (fields : List (String × Json)) :
    indentedFields level fields = fields.map fun f => quoted f.1 ++ ": " ++ f.2.indented level := by
  induction fields with
  | nil => rfl
  | cons f fields ih => rw [indentedFields, ih, List.map_cons]

theorem leavesOfAll_eq_flatMap (items : List Json) : leavesOfAll items = items.flatMap leaves := by
  induction items with
  | nil => rfl
  | cons v vs ih => rw [leavesOfAll, ih, List.flatMap_cons]

theorem leavesOfFields_eq_flatMap (fields : List (String × Json)) :
    leavesOfFields fields = fields.flatMap fun f => f.2.leaves := by
  induction fields with
  | nil => rfl
  | cons f fields ih => rw [leavesOfFields, ih, List.flatMap_cons]

/-- To prove something of all values, prove it of lists and records whose parts have it. -/
@[elab_as_elim]
theorem ind {motive : Json → Prop} (text : ∀ t, motive (.text t)) (count : ∀ n, motive (.count n))
    (decimal : ∀ x, motive (.decimal x)) (list : ∀ items, (∀ v ∈ items, motive v) → motive (.list items))
    (record : ∀ fields, (∀ f ∈ fields, motive f.2) → motive (.record fields)) (v : Json) : motive v :=
  @Json.rec motive (fun items => ∀ v ∈ items, motive v) (fun fields => ∀ f ∈ fields, motive f.2) (fun f => motive f.2)
    text count decimal list record (by simp) (by simp +contextual) (by simp) (by simp +contextual) (fun _ _ h => h) v

/-! ### What is written -/

section

variable {α : Type} {Item : Text → α → Prop} {b₀ b b' : Text} {ts : List Text} {items : List α}

/-- Items that are joined by commas with blanks behind them. -/
theorem listed_join (h₀ : Blanks b₀) (hb : Blanks b) (hb' : Blanks b') (hitems : List.Forall₂ Item ts items) (hne : ts ≠ []) :
    Listed Item (b₀ ++ (Text.join (',' :: b) ts ++ b')) items := by
  induction hitems generalizing b₀ with
  | nil => exact absurd rfl hne
  | @cons t a ts items ha hitems ih =>
    cases hitems with
    | nil =>
      rw [Text.join, List.intercalate_singleton]
      exact .last h₀ ha hb'
    | cons hnext hitems =>
      have hmore := Listed.more h₀ ha (show Blanks [] by simp [Blanks]) (ih hb (List.cons_ne_nil _ _))
      simpa [Text.join, List.intercalate_cons_cons] using hmore

theorem bracketed_join (opening closing : CodePoint) (h₀ : Blanks b₀) (hb : Blanks b) (hb' : Blanks b')
    (hitems : List.Forall₂ Item ts items) :
    Bracketed opening closing Item (opening :: (b₀ ++ (Text.join (',' :: b) ts ++ b') ++ [closing])) items := by
  cases hitems with
  | nil =>
    apply Bracketed.empty
    intro c hc
    rcases List.mem_append.1 hc with hc | hc
    · exact h₀ c hc
    · exact hb' c hc
  | cons ha hitems => exact .full (listed_join h₀ hb hb' (.cons ha hitems) (List.cons_ne_nil _ _))

end

theorem blanks_newLine (level : Nat) : Blanks (newLine level) := by
  intro c hc
  rcases List.mem_cons.1 hc with rfl | hc
  · rfl
  · rw [List.eq_of_mem_replicate hc]
    rfl

theorem member_quoted (name : String) {t : Text} {v : Datum} (h : Spells t v) :
    Member Spells (quoted name ++ ": " ++ t) (Text.ofString name, v) := by
  have hmember := Member.mk (isString_quoted (Text.unpaired_ofString name)) (show Blanks [] by simp [Blanks])
    (show Blanks [' '] by simp [Blanks, isBlank]) h
  rwa [List.append_assoc]

theorem forall₂_items {write : Json → Text} {items : List Json} (h : ∀ v ∈ items, Spells (write v) v.datum) :
    List.Forall₂ Spells (items.map write) (data items) := by
  rw [data_eq_map, List.forall₂_map_left_iff, List.forall₂_map_right_iff, List.forall₂_same]
  exact h

theorem forall₂_fields {write : Json → Text} {fields : List (String × Json)} (h : ∀ f ∈ fields, Spells (write f.2) f.2.datum) :
    List.Forall₂ (Member Spells) (fields.map fun f => quoted f.1 ++ ": " ++ write f.2) (namedData fields) := by
  rw [namedData_eq_map, List.forall₂_map_left_iff, List.forall₂_map_right_iff, List.forall₂_same]
  exact fun f hf => member_quoted f.1 (h f hf)

theorem blanks_nil : Blanks [] := by simp [Blanks]

theorem blanks_space : Blanks [' '] := by simp [Blanks, isBlank]

/-- A value on one line stands for its datum. -/
theorem spells_line (v : Json) (h : ∀ t ∈ v.leaves, t.Unpaired) : Spells v.line v.datum := by
  induction v using Json.ind with
  | text t => exact .text (isString_quoted (h t List.mem_cons_self))
  | count n => exact .number (isNumber_ofNat n)
  | decimal x => exact .number (Decimal.isNumber_text x)
  | list items ih =>
    rw [leaves, leavesOfAll_eq_flatMap, List.forall_mem_flatMap] at h
    have hitems := forall₂_items fun v hv => ih v hv (h v hv)
    have hlist := bracketed_join '[' ']' blanks_nil blanks_space blanks_nil hitems
    rw [List.append_nil, ← lines_eq_map] at hlist
    exact .list hlist
  | record fields ih =>
    rw [leaves, leavesOfFields_eq_flatMap, List.forall_mem_flatMap] at h
    have hfields := forall₂_fields fun f hf => ih f hf (h f hf)
    have hrecord := bracketed_join '\x7b' '\x7d' blanks_nil blanks_space blanks_nil hfields
    rw [List.append_nil, ← fieldLines_eq_map] at hrecord
    exact .record hrecord

/-- Items on lines of their own. -/
theorem bracketed_block (level : Nat) {α : Type} {Item : Text → α → Prop} {ts : List Text} {items : List α}
    {opening closing : CodePoint} (h : List.Forall₂ Item ts items) :
    Bracketed opening closing Item (block level [opening] [closing] ts) items := by
  cases h with
  | nil => exact .empty blanks_nil
  | cons ha h =>
    have hinner := blanks_newLine (level + 1)
    have hitems := bracketed_join opening closing hinner hinner (blanks_newLine level) (.cons ha h)
    simp only [block, List.append_assoc] at hitems ⊢
    exact hitems

/-- A value over several lines stands for its datum. -/
theorem spells_indented (v : Json) (h : ∀ t ∈ v.leaves, t.Unpaired) (level : Nat) : Spells (v.indented level) v.datum := by
  induction v using Json.ind generalizing level with
  | text t => exact .text (isString_quoted (h t List.mem_cons_self))
  | count n => exact .number (isNumber_ofNat n)
  | decimal x => exact .number (Decimal.isNumber_text x)
  | list items ih =>
    rw [leaves, leavesOfAll_eq_flatMap, List.forall_mem_flatMap] at h
    have hitems := forall₂_items fun v hv => ih v hv (h v hv) (level + 1)
    rw [← indentedAll_eq_map] at hitems
    exact .list (bracketed_block level hitems)
  | record fields ih =>
    rw [leaves, leavesOfFields_eq_flatMap, List.forall_mem_flatMap] at h
    have hfields := forall₂_fields fun f hf => ih f hf (h f hf) (level + 1)
    rw [← indentedFields_eq_map] at hfields
    exact .record (bracketed_block level hfields)

end Json

end Coupling
