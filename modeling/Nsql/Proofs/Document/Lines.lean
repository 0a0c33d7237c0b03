/-
  File:      Nsql/Proofs/Document/Lines.lean
  Subject:   Two views of a text: the lines that a validator counts and the rows of a document.

  A validator cuts a text at its line breaks and drops them, and it finds the line of an offset by
  counting breaks. A document keeps the breaks at the end of its rows. The views agree:

  * `map_bare_rows` -- the lines are the rows without their breaks;
  * `lines_append`, `lines_append_lineFeed` -- the lines of a text that is cut in two;
  * `lineAtByte_append_of_le`, `lineAtByte_append_add` -- the line of an offset in either part;
  * `lineAtByte_lt` -- wherever the offset is, its line exists.
-/
import Nsql.Proofs.Document.Place
import Nsql.Text.Lines

namespace Nsql

open Document (rows bare breaks openLine glue isBreak Severs)

namespace Text

/-! ## 1. Rows and lines -/

/-- A character that is no break stays in its row. -/
theorem bare_cons {c : Char} (row : Text) (h : isBreak c = false) :
    bare (c :: row) = c :: bare row := by
  have hall : ∀ x ∈ [c], isBreak x = false := by
    intro x hx
    rw [List.mem_singleton.mp hx]
    exact h
  exact Document.bare_append hall

/-- A row that holds nothing but its break is an empty line. -/
theorem bare_break {c : Char} (h : c = '\n' ∨ c = '\r') : bare [c] = [] := by
  rcases h with rfl | rfl <;> rfl

/-- **The lines of a text are the rows of a document without their breaks.** -/
theorem map_bare_rows (t : Text) : (rows t).map bare = lines t := by
  fun_induction rows t with
  | case1 => rfl
  | case2 t ih =>
    rw [List.map_cons, ih, lines]
    rfl
  | case3 c t hpair hc ih =>
    rw [List.map_cons, ih, bare_break hc, lines, if_pos hc]
    exact hpair
  | case4 c t hpair hc ih =>
    have hcb : isBreak c = false := by
      rw [← Bool.not_eq_true, Document.isBreak_iff]
      exact hc
    obtain ⟨r, rs, hr⟩ := List.exists_cons_of_ne_nil (Document.rows_ne_nil t)
    rw [lines, if_neg hc, ← ih, hr]
    · simp only [Document.consRow, List.map_cons, consLine, bare_cons r hcb]
    · exact hpair

/-- **Lines and cuts**: the first part of a text has as many full lines as breaks, then comes its
    open line, and the lines of the second part continue it. -/
theorem lines_append (p s : Text) (h : ¬ Severs p s) :
    ∃ full, full.length = breaks p ∧ lines p = full ++ [openLine p] ∧
      lines (p ++ s) = full ++ glue (openLine p) (lines s) := by
  obtain ⟨full, hlen, hrows, happ⟩ := Document.rows_append p s h
  obtain ⟨r, rs, hr⟩ := List.exists_cons_of_ne_nil (Document.rows_ne_nil s)
  have hopen : ∀ c ∈ openLine p, isBreak c = false :=
    fun _ hc => Document.not_isBreak_of_mem_openLine hc
  have hbare : bare (openLine p) = openLine p := by
    have hnil : bare (openLine p ++ []) = openLine p ++ bare [] := Document.bare_append hopen
    rwa [List.append_nil, show bare [] = [] from rfl, List.append_nil] at hnil
  refine ⟨full.map bare, by rw [List.length_map, hlen], ?_, ?_⟩
  · rw [← map_bare_rows, hrows, List.map_append, List.map_singleton, hbare]
  · rw [← map_bare_rows, happ, List.map_append, ← map_bare_rows s, hr]
    simp only [glue, List.map_cons, Document.bare_append hopen]

/-- A text has one line more than breaks. -/
theorem length_lines (t : Text) : (lines t).length = breaks t + 1 := by
  obtain ⟨full, hlen, hlines, -⟩ := lines_append t [] fun h => by cases h.2
  rw [hlines, List.length_append, hlen, List.length_singleton]

/-- A line feed that is a break of its own separates the lines before it from those behind it. -/
theorem lines_append_lineFeed (p s : Text) (h : p.getLast? ≠ some '\r') :
    lines (p ++ '\n' :: s) = lines p ++ lines s := by
  obtain ⟨full, -, hlines, happ⟩ := lines_append p ('\n' :: s) fun hs => h hs.1
  have hbreak : lines ('\n' :: s) = [] :: lines s := by
    rw [lines, if_pos (.inl rfl)]
    intro t hcr
    cases hcr
  rw [happ, hlines, hbreak, List.append_assoc]
  simp only [glue, List.append_nil, List.singleton_append]

theorem lineWidth_append_left {ls : List Text} {i : Nat} (h : i < ls.length) (rest : List Text) :
    lineWidth (ls ++ rest) i = lineWidth ls i := by
  rw [lineWidth, lineWidth, List.getElem?_append_left h]

theorem lineWidth_append_right (ls rest : List Text) (i : Nat) :
    lineWidth (ls ++ rest) (i + ls.length) = lineWidth rest i := by
  rw [lineWidth, lineWidth, List.getElem?_append_right (Nat.le_add_left _ _), Nat.add_sub_cancel]

/-! ## 2. The line of an offset -/

theorem bytesOf_break {c : Char} (h : c = '\n' ∨ c = '\r') : bytesOf c = 1 := by
  rcases h with rfl | rfl <;> rfl

/-- Behind the first character of a text that begins with a break one line has ended. -/
theorem lineAtByte_one {c : Char} (t : Text) (h : c = '\n' ∨ c = '\r') :
    lineAtByte (c :: t) 1 = 1 := by
  by_cases hpair : ∃ u, c = '\r' ∧ t = '\n' :: u
  · obtain ⟨u, rfl, rfl⟩ := hpair
    rfl
  · rw [lineAtByte, if_pos h, lineAtByte.eq_1]
    intro u hcr hu
    exact hpair ⟨u, hcr, hu⟩

/-- The line of an offset in the first part of a text does not depend on the second part. -/
theorem lineAtByte_append_of_le (p s : Text) {n : Nat} (h : n ≤ size p) :
    lineAtByte (p ++ s) n = lineAtByte p n := by
  fun_induction lineAtByte p n with
  | case1 t => exact lineAtByte.eq_1 _
  | case2 n hn => exact absurd (Nat.eq_zero_of_le_zero h) hn
  | case3 t => exact lineAtByte_one _ (.inr rfl)
  | case4 t n hn ih =>
    have hle : n - 1 ≤ size t := by
      have h1 : bytesOf '\r' = 1 := rfl
      have h2 : bytesOf '\n' = 1 := rfl
      simp only [size_cons] at h
      omega
    rw [List.cons_append, List.cons_append, lineAtByte, if_neg hn, ih hle]
  | case5 c t n hpair hc ih =>
    have hle : n ≤ size t := by
      have h1 := bytesOf_break hc
      simp only [size_cons] at h
      omega
    by_cases hn : n = 0
    · subst hn
      rw [List.cons_append, lineAtByte_one _ hc, lineAtByte.eq_1]
    · rw [List.cons_append, lineAtByte, if_pos hc, ih hle]
      -- a carriage return at the end of the first part would leave no room for the offset
      intro u hcr hu
      cases t with
      | nil => exact hn (Nat.eq_zero_of_le_zero hle)
      | cons x t =>
        obtain ⟨rfl, -⟩ := List.cons.inj hu
        exact hpair t hcr rfl
  | case6 c t n hpair hc ih =>
    have hle : n + 1 - bytesOf c ≤ size t := by
      simp only [size_cons] at h
      omega
    rw [List.cons_append, lineAtByte, if_neg hc, ih hle]
    intro u hcr
    exact absurd (Or.inr hcr) hc

/-- **The line of an offset in the second part**: the breaks of the first part come on top. -/
theorem lineAtByte_append_add (p s : Text) (n : Nat) (h : ¬ Severs p s) :
    lineAtByte (p ++ s) (size p + n) = breaks p + lineAtByte s n := by
  fun_induction breaks p with
  | case1 => rw [List.nil_append, size_nil, Nat.zero_add, Nat.zero_add]
  | case2 t ih =>
    have hsize : size ('\r' :: '\n' :: t) + n = (size t + n + 1) + 1 := by
      have h1 : bytesOf '\r' = 1 := rfl
      have h2 : bytesOf '\n' = 1 := rfl
      simp only [size_cons]
      omega
    rw [hsize, List.cons_append, List.cons_append, lineAtByte, if_neg (Nat.succ_ne_zero _),
      Nat.add_sub_cancel, ih fun hs => h ((hs.cons _).cons _)]
    omega
  | case3 c t hpair hc ih =>
    have hsize : size (c :: t) + n = (size t + n) + 1 := by
      rw [size_cons, bytesOf_break hc]
      omega
    rw [hsize, List.cons_append, lineAtByte, if_pos hc, ih fun hs => h (hs.cons _)]
    · omega
    · intro u hcr hu
      cases t with
      | nil => exact h ⟨by rw [hcr]; rfl, by rw [List.nil_append] at hu; rw [hu]; rfl⟩
      | cons x t =>
        obtain ⟨rfl, -⟩ := List.cons.inj hu
        exact hpair t hcr rfl
  | case4 c t hpair hc ih =>
    have hpos := bytesOf_pos c
    obtain ⟨m, hm⟩ : ∃ m, size (c :: t) + n = m + 1 := ⟨size (c :: t) + n - 1, by
      rw [size_cons]
      omega⟩
    have hrest : m + 1 - bytesOf c = size t + n := by
      rw [← hm, size_cons]
      omega
    rw [hm, List.cons_append, lineAtByte, if_neg hc, hrest, ih fun hs => h (hs.cons _)]
    intro u hcr
    exact absurd (Or.inr hcr) hc

/-- Behind a line feed that is a break of its own the lines are counted on. -/
theorem lineAtByte_append_lineFeed (p s : Text) (n : Nat) (h : p.getLast? ≠ some '\r') :
    lineAtByte (p ++ '\n' :: s) (n + (size p + 1)) = lineAtByte s n + (lines p).length := by
  have hfeed : lineAtByte ('\n' :: s) (n + 1) = lineAtByte s n + 1 := by
    rw [lineAtByte, if_pos (.inl rfl)]
    intro u hcr
    cases hcr
  have hsum : n + (size p + 1) = size p + (n + 1) := by omega
  rw [hsum, lineAtByte_append_add p _ _ fun hs => h hs.1, hfeed, length_lines]
  omega

/-- **The line of an offset exists**, wherever the offset is. -/
theorem lineAtByte_lt (t : Text) (n : Nat) : lineAtByte t n < (lines t).length := by
  rw [length_lines]
  fun_induction lineAtByte t n with
  | case1 t => omega
  | case2 n hn => omega
  | case3 t =>
    rw [breaks]
    omega
  | case4 t n hn ih =>
    rw [breaks]
    omega
  | case5 c t n hpair hc ih =>
    rw [breaks, if_pos hc]
    · omega
    · exact hpair
  | case6 c t n hpair hc ih =>
    rw [breaks, if_neg hc]
    · exact ih
    · exact hpair

end Text

end Nsql
