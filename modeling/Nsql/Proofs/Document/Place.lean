/-
  File:      Nsql/Proofs/Document/Place.lean
  Subject:   The place of a cut in a text, and the way back.

  A client that cuts its text in two names the cut by what stands before it: how many line breaks
  there are, and how many UTF-16 units follow the last of them (`place`). A document resolves
  such a place through its rows. The two fit together:

  * `rows_append` -- the rows of a text that is cut in two are the rows of its first part, the
    last of them continued by the rows of the second part;
  * `offset?_place` -- so the document finds the cut again, wherever it is, unless it falls
    between a carriage return and the line feed behind it (`Severs`): there is no such place.
-/
import Mathlib.Data.List.DropRight
import Nsql.Document.Basic

namespace Nsql.Document

/-! ## 1. Places -/

/-- The line breaks of a text; a carriage return with a line feed behind it is one. -/
def breaks : Text → Nat
  | [] => 0
  | '\r' :: '\n' :: t => breaks t + 1
  | c :: t => if c = '\n' ∨ c = '\r' then breaks t + 1 else breaks t

/-- What stands behind the last line break of a text. -/
def openLine (t : Text) : Text := t.rtakeWhile fun c => !isBreak c

/-- The place at the end of a text. -/
def place (t : Text) : Position := ⟨breaks t, Text.width (openLine t)⟩

/-- Whether a cut between two texts falls into a line break. -/
def Severs (p s : Text) : Prop := p.getLast? = some '\r' ∧ s.head? = some '\n'

instance (p s : Text) : Decidable (Severs p s) := inferInstanceAs (Decidable (_ ∧ _))

theorem isBreak_iff {c : Char} : isBreak c = true ↔ c = '\n' ∨ c = '\r' := by
  simp [isBreak]

/-- Whether a cut falls into a break does not depend on what stands further to the left. -/
theorem Severs.cons {p s : Text} (h : Severs p s) (c : Char) : Severs (c :: p) s := by
  have hp : p ≠ [] := by
    rintro rfl
    simpa using h.1
  refine ⟨?_, h.2⟩
  rw [List.getLast?_cons_of_ne_nil hp]
  exact h.1

theorem not_isBreak_of_mem_openLine {t : Text} {c : Char} (h : c ∈ openLine t) :
    isBreak c = false := by
  simpa using List.mem_rtakeWhile_imp h

/-- In front of an open line that is not the whole text, one more character changes nothing. -/
theorem openLine_cons_of_ne {c : Char} {t : Text} (h : openLine t ≠ t) :
    openLine (c :: t) = openLine t := by
  have hlen : (List.takeWhile (fun c => !isBreak c) t.reverse).length ≠ t.reverse.length := by
    intro e
    apply h
    have hself := (List.takeWhile_prefix (fun c => !isBreak c) (l := t.reverse)).eq_of_length e
    rw [openLine, List.rtakeWhile, hself, List.reverse_reverse]
  rw [openLine, List.rtakeWhile, List.reverse_cons, List.takeWhile_append, if_neg hlen]
  rfl

/-- Behind a break a line begins anew. -/
theorem openLine_cons_break {c : Char} {t : Text} (h : isBreak c = true) :
    openLine (c :: t) = openLine t := by
  by_cases ht : openLine t = t
  · have hall : ∀ x ∈ t, (!isBreak x) = true := List.rtakeWhile_eq_self_iff.mp ht
    rw [openLine, List.rtakeWhile, List.reverse_cons, List.takeWhile_append_of_pos, ht]
    · simp [h]
    · intro x hx
      exact hall x (List.mem_reverse.mp hx)
  · exact openLine_cons_of_ne ht

/-- A text without a break is its own open line. -/
theorem openLine_cons_of_eq {c : Char} {t : Text} (h : openLine t = t) (hc : isBreak c = false) :
    openLine (c :: t) = c :: t := by
  refine List.rtakeWhile_eq_self_iff.mpr fun x hx => ?_
  rcases List.mem_cons.mp hx with rfl | hx
  · simpa using hc
  · exact List.rtakeWhile_eq_self_iff.mp h x hx

/-- A text that is its own open line has no break. -/
theorem breaks_eq_zero {t : Text} (h : openLine t = t) : breaks t = 0 := by
  have hall : ∀ x ∈ t, isBreak x = false := by
    rw [← h]
    exact fun _ => not_isBreak_of_mem_openLine
  clear h
  fun_induction breaks t with
  | case1 => rfl
  | case2 t _ => exact absurd (hall '\r' List.mem_cons_self) (by decide)
  | case3 c t _ hc _ =>
    have := hall c List.mem_cons_self
    rw [isBreak_iff.mpr hc] at this
    cases this
  | case4 c t _ _ ih => exact ih fun x hx => hall x (List.mem_cons_of_mem c hx)

/-! ## 2. The rows of a text that is cut in two -/

/-- Puts a text in front of the first row. -/
def glue (l : Text) : List Text → List Text
  | [] => [l]
  | r :: rs => (l ++ r) :: rs

/-- **Rows and cuts**: the first part of a text has as many full rows as breaks, then comes its
    open line, and the rows of the second part continue it. -/
theorem rows_append (p s : Text) (h : ¬ Severs p s) :
    ∃ full, full.length = breaks p ∧ rows p = full ++ [openLine p] ∧
      rows (p ++ s) = full ++ glue (openLine p) (rows s) := by
  -- the recursion of `rows`: a pair, a lone break, or a character that joins the next row
  fun_induction rows p with
  | case1 =>
    refine ⟨[], rfl, rfl, ?_⟩
    obtain ⟨r, rs, hr⟩ := List.exists_cons_of_ne_nil (rows_ne_nil s)
    rw [List.nil_append, hr]
    rfl
  | case2 t ih =>
    obtain ⟨full, hlen, hrows, happ⟩ := ih fun hs => h ((hs.cons _).cons _)
    have hopen : openLine ('\r' :: '\n' :: t) = openLine t :=
      (openLine_cons_break rfl).trans (openLine_cons_break rfl)
    refine ⟨['\r', '\n'] :: full, ?_, ?_, ?_⟩
    · simp [breaks, hlen]
    · rw [hopen, hrows]
      rfl
    · rw [hopen, List.cons_append, List.cons_append, rows, happ]
      rfl
  | case3 c t hpair hc ih =>
    obtain ⟨full, hlen, hrows, happ⟩ := ih fun hs => h (hs.cons _)
    have hopen : openLine (c :: t) = openLine t := openLine_cons_break (isBreak_iff.mpr hc)
    have hpair' : ∀ t', c = '\r' → t ++ s ≠ '\n' :: t' := by
      intro t' hcr e
      cases t with
      | nil =>
        rw [List.nil_append] at e
        exact h ⟨by rw [hcr]; rfl, by rw [e]; rfl⟩
      | cons x t =>
        obtain ⟨rfl, -⟩ := List.cons.inj e
        exact hpair t hcr rfl
    refine ⟨[c] :: full, ?_, ?_, ?_⟩
    · rw [breaks, if_pos hc, ← hlen]
      · rfl
      · exact hpair
    · rw [hopen, hrows]
      rfl
    · rw [hopen, List.cons_append, rows, if_pos hc, happ]
      · rfl
      · exact hpair'
  | case4 c t hpair hc ih =>
    obtain ⟨full, hlen, hrows, happ⟩ := ih fun hs => h (hs.cons _)
    have hcb : isBreak c = false := by
      rw [← Bool.not_eq_true, isBreak_iff]
      exact hc
    have hbreaks : breaks (c :: t) = breaks t := by
      rw [breaks, if_neg hc]
      exact hpair
    have hsplit : full.flatten ++ openLine t = t := by
      have := flatten_rows t
      rw [hrows] at this
      simpa using this
    have hrow : rows (c :: (t ++ s)) = consRow c (rows (t ++ s)) := by
      rw [rows, if_neg hc]
      intro t' hcr
      exact absurd (Or.inr hcr) hc
    rw [List.cons_append, hrow, happ, hbreaks, hrows]
    cases full with
    | nil =>
      -- no break in `t`: the character joins the open line
      have hopen : openLine (c :: t) = c :: openLine t := by
        have ht' : openLine t = t := by simpa using hsplit
        rw [openLine_cons_of_eq ht' hcb, ht']
      refine ⟨[], hlen, ?_, ?_⟩
      · rw [hopen]
        rfl
      · rw [hopen]
        cases rows s <;> rfl
    | cons r full =>
      -- the character joins the first full row, and the open line stays
      have hopen : openLine (c :: t) = openLine t := by
        refine openLine_cons_of_ne fun ht => ?_
        rw [breaks_eq_zero ht] at hlen
        cases hlen
      refine ⟨(c :: r) :: full, hlen, ?_, ?_⟩
      · rw [hopen]
        rfl
      · rw [hopen]
        rfl

/-! ## 3. From the place back to the cut -/

/-- A line that has no break keeps all of its characters when the row loses its break. -/
theorem bare_append {l row : Text} (h : ∀ c ∈ l, isBreak c = false) :
    bare (l ++ row) = l ++ bare row := by
  have hl : l.reverse.dropWhile isBreak = l.reverse := by
    refine List.dropWhile_eq_self_iff.mpr fun hpos => ?_
    rw [Bool.not_eq_true]
    exact h _ (List.mem_reverse.mp (List.getElem_mem hpos))
  unfold bare Text.dropEndWhile
  rw [List.reverse_append, List.dropWhile_append]
  split
  · rename_i he
    rw [List.isEmpty_iff.mp he, hl, List.reverse_reverse, List.reverse_nil, List.append_nil]
  · rw [List.reverse_append, List.reverse_reverse]

/-- **The document finds the cut again**: the place at the end of the first part resolves to the
    number of characters in it. -/
theorem offset?_place (p s : Text) (h : ¬ Severs p s) :
    offset? (p ++ s) (place p) = some p.length := by
  obtain ⟨full, hlen, hrows, happ⟩ := rows_append p s h
  obtain ⟨row, rest, hrow⟩ := List.exists_cons_of_ne_nil (rows_ne_nil s)
  have hp : full.flatten ++ openLine p = p := by
    have := flatten_rows p
    rw [hrows] at this
    simpa using this
  have hget : (rows (p ++ s))[breaks p]? = some (openLine p ++ row) := by
    rw [happ, hrow, ← hlen]
    simp [glue]
  have htake : (rows (p ++ s)).take (breaks p) = full := by
    rw [happ, ← hlen, List.take_left]
  have hbare : bare (openLine p ++ row) = openLine p ++ bare row :=
    bare_append fun _ => not_isBreak_of_mem_openLine
  -- the column is inside the line, so the minimum is the column, and the two parts before the
  -- cut are as wide as the text before the cut
  have hcolumn : min (Text.width full.flatten + Text.width (openLine p))
      (Text.width full.flatten + Text.width (bare (openLine p ++ row))) = Text.width p := by
    rw [hbare, Text.width_append]
    have hw : Text.width full.flatten + Text.width (openLine p) = Text.width p := by
      rw [← Text.width_append, hp]
    omega
  simp only [offset?, place, hget, htake, hcolumn, Text.charsWithin_width]

/-- There are no more breaks than UTF-16 units. -/
theorem breaks_le_width (t : Text) : breaks t ≤ Text.width t := by
  fun_induction breaks t with
  | case1 => exact Nat.le_refl 0
  | case2 t ih =>
    have h1 := unitsOf_pos '\r'
    simp only [Text.width_cons]
    omega
  | case3 c t _ _ ih =>
    have h1 := unitsOf_pos c
    simp only [Text.width_cons]
    omega
  | case4 c t _ _ ih =>
    simp only [Text.width_cons]
    omega

/-- Neither the line nor the column of a place is larger than the width of the text. -/
theorem place_le_width (p s : Text) :
    (place p).line ≤ Text.width (p ++ s) ∧ (place p).column ≤ Text.width (p ++ s) := by
  have hline := breaks_le_width p
  have hcolumn : Text.width (openLine p) ≤ Text.width p := by
    obtain ⟨q, hq⟩ : openLine p <:+ p := List.rtakeWhile_suffix (fun c => !isBreak c) p
    have hw := Text.width_append q (openLine p)
    rw [hq] at hw
    omega
  rw [Text.width_append]
  exact ⟨by simp only [place]; omega, by simp only [place]; omega⟩

end Nsql.Document
