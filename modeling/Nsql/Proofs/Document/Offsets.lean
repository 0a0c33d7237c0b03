/-
  File:      Nsql/Proofs/Document/Offsets.lean
  Subject:   From places to offsets.

  A place names a line and a column in UTF-16 units. It is resolved to the start of the line and as
  many characters of the line as fit into the column. So a place never leaves its line: a column
  past the end is the end of the line, a column inside a surrogate pair is the place before the
  pair, and nothing is resolved to a place inside a line break.

  * `isGreatest_charsWithin` -- what fits into a column;
  * `offset?_of_line` -- the offset of a place on a line that exists;
  * `not_severs_of_rows` -- no line starts inside a line break;
  * `offset?_mono` -- places that follow one another have offsets that do;
  * `onLine_place` -- the place of an offset is on the line that the offset belongs to;
  * **`places_resolve`** -- all of this, and when a range is refused.
-/
import Mathlib.Order.Bounds.Defs
import Nsql.Proofs.Document.Ranges

namespace Nsql

/-! ## 1. Characters that fit into a column -/

namespace Text

theorem charsWithin_append_add (s t : Text) (n : Nat) :
    charsWithin (s ++ t) (width s + n) = s.length + charsWithin t n := by
  induction s with
  | nil => simp
  | cons c s ih =>
    have hfits : ¬ width (c :: s) + n < unitsOf c := by
      rw [width_cons]
      omega
    have hrest : width (c :: s) + n - unitsOf c = width s + n := by
      rw [width_cons]
      omega
    rw [List.cons_append, charsWithin, if_neg hfits, hrest, ih, List.length_cons]
    omega

/-- What stands behind a text does not matter for a column inside it. -/
theorem charsWithin_append_of_le (s t : Text) {n : Nat} (h : n ≤ width s) :
    charsWithin (s ++ t) n = charsWithin s n := by
  induction s generalizing n with
  | nil =>
    obtain rfl : n = 0 := Nat.eq_zero_of_le_zero h
    exact charsWithin_width [] t
  | cons c s ih =>
    rw [width_cons] at h
    rw [List.cons_append, charsWithin, charsWithin]
    split
    · rfl
    · rw [ih (by omega)]

/-- Into a column past the end all characters fit. -/
theorem charsWithin_of_width_le {s : Text} {n : Nat} (h : width s ≤ n) :
    charsWithin s n = s.length := by
  have hall := charsWithin_append_add s [] (n - width s)
  rw [List.append_nil, Nat.add_sub_cancel' h] at hall
  rw [hall]
  rfl

/-- **What fits into a column**: the largest number of characters that are not wider. -/
theorem isGreatest_charsWithin (s : Text) (n : Nat) :
    IsGreatest {k | k ≤ s.length ∧ width (s.take k) ≤ n} (charsWithin s n) := by
  induction s generalizing n with
  | nil =>
    refine ⟨⟨Nat.le_refl 0, Nat.zero_le n⟩, ?_⟩
    rintro k ⟨hk, -⟩
    exact hk
  | cons c s ih =>
    rw [charsWithin]
    split
    · rename_i hlt
      refine ⟨⟨Nat.zero_le _, Nat.zero_le n⟩, ?_⟩
      rintro k ⟨-, hw⟩
      cases k with
      | zero => exact Nat.le_refl 0
      | succ k =>
        rw [List.take_succ_cons, width_cons] at hw
        omega
    · rename_i hge
      obtain ⟨⟨hlen, hwidth⟩, hbound⟩ := ih (n - unitsOf c)
      refine ⟨⟨Nat.succ_le_succ hlen, ?_⟩, ?_⟩
      · rw [List.take_succ_cons, width_cons]
        omega
      · rintro k ⟨hk, hw⟩
        cases k with
        | zero => exact Nat.zero_le _
        | succ k =>
          rw [List.take_succ_cons, width_cons] at hw
          have hk' : k ≤ s.length := Nat.le_of_succ_le_succ hk
          exact Nat.succ_le_succ (hbound ⟨hk', by omega⟩)

/-- No break is left in a line. -/
theorem not_isBreak_of_mem_line {t line : Text} (h : line ∈ lines t) :
    ∀ c ∈ line, Document.isBreak c = false := by
  fun_induction lines t generalizing line with
  | case1 =>
    rw [List.mem_singleton.mp h]
    exact fun c hc => absurd hc List.not_mem_nil
  | case2 t ih | case3 c t _ _ ih =>
    rcases List.mem_cons.mp h with rfl | h
    · exact fun c hc => absurd hc List.not_mem_nil
    · exact ih h
  | case4 c t _ hc ih =>
    obtain ⟨l, ls, hl⟩ := List.exists_cons_of_ne_nil (lines_ne_nil t)
    rw [hl] at h ih
    rcases List.mem_cons.mp h with rfl | h
    · intro x hx
      rcases List.mem_cons.mp hx with rfl | hx
      · rw [← Bool.not_eq_true, Document.isBreak_iff]
        exact hc
      · exact ih List.mem_cons_self x hx
    · exact ih (List.mem_cons_of_mem _ h)

end Text

namespace Document

/-! ## 2. Where lines start -/

/-- The offset of the first character of a line; the length of the text where there is none. -/
def lineStart (t : Text) (i : Nat) : Nat := ((rows t).take i).flatten.length

/-- An offset belongs to a line if it is in the line or in the break behind it. -/
def OnLine (t : Text) (o i : Nat) : Prop := lineStart t i ≤ o ∧ o < lineStart t (i + 1)

theorem length_rows (t : Text) : (rows t).length = (Text.lines t).length := by
  rw [← Text.map_bare_rows, List.length_map]

theorem lineStart_succ {t row : Text} {i : Nat} (h : (rows t)[i]? = some row) :
    lineStart t (i + 1) = lineStart t i + row.length := by
  rw [lineStart, lineStart, List.take_add_one, h, Option.toList_some, List.flatten_append,
    List.length_append, List.flatten_singleton]

theorem lineStart_mono (t : Text) {i j : Nat} (h : i ≤ j) : lineStart t i ≤ lineStart t j := by
  obtain ⟨rest, hrest⟩ : (rows t).take i <+: (rows t).take j := List.take_prefix_take_left h
  rw [lineStart, lineStart, ← hrest, List.flatten_append, List.length_append]
  omega

theorem lineStart_le_length (t : Text) (i : Nat) : lineStart t i ≤ t.length := by
  have hflat := congrArg List.flatten (List.take_append_drop i (rows t))
  rw [flatten_rows, List.flatten_append] at hflat
  have hlen := congrArg List.length hflat
  rw [List.length_append] at hlen
  rw [lineStart]
  omega

/-- An offset belongs to one line only. -/
theorem OnLine.unique {t : Text} {o i j : Nat} (hi : OnLine t o i) (hj : OnLine t o j) :
    i = j := by
  have hle : ∀ {i j}, OnLine t o i → OnLine t o j → ¬ i < j := by
    intro i j hi hj hlt
    have hstart : lineStart t (i + 1) ≤ lineStart t j := lineStart_mono t hlt
    obtain ⟨-, hend⟩ := hi
    obtain ⟨hbegin, -⟩ := hj
    omega
  have h1 := hle hi hj
  have h2 := hle hj hi
  omega

/-- **A text is cut by each of its lines**: the rows before it, the line, its break, and the rows
    behind it. -/
theorem exists_cut_of_line {t line : Text} {i : Nat} (h : (Text.lines t)[i]? = some line) :
    ∃ full b rest, rows t = full ++ (line ++ b) :: rest ∧ full.length = i ∧
      full.flatten.length = lineStart t i ∧
      t = full.flatten ++ (line ++ (b ++ rest.flatten)) := by
  rw [← Text.map_bare_rows, List.getElem?_map] at h
  obtain ⟨row, hrow, rfl⟩ := Option.map_eq_some_iff.mp h
  obtain ⟨hi, hget⟩ := List.getElem?_eq_some_iff.mp hrow
  have hsplit : bare row ++ (row.reverse.takeWhile isBreak).reverse = row := by
    rw [bare, Text.dropEndWhile, ← List.reverse_append, List.takeWhile_append_dropWhile,
      List.reverse_reverse]
  have hrows : rows t = (rows t).take i ++ row :: (rows t).drop (i + 1) := by
    rw [← hget, ← List.drop_eq_getElem_cons hi, List.take_append_drop]
  refine ⟨(rows t).take i, (row.reverse.takeWhile isBreak).reverse, (rows t).drop (i + 1), ?_,
    List.length_take_of_le (Nat.le_of_lt hi), rfl, ?_⟩
  · rw [hsplit]
    exact hrows
  · have hflat := congrArg List.flatten hrows
    rw [flatten_rows, List.flatten_append, List.flatten_cons] at hflat
    rw [← List.append_assoc (bare row), hsplit]
    exact hflat

/-- The end of a line is not behind the start of the next one. -/
theorem lineStart_add_length_le {t line : Text} {i : Nat} (h : (Text.lines t)[i]? = some line) :
    lineStart t i + line.length ≤ lineStart t (i + 1) := by
  obtain ⟨full, b, rest, hrows, hlen, -, -⟩ := exists_cut_of_line h
  have hrow : (rows t)[i]? = some (line ++ b) := by
    rw [hrows, ← hlen]
    simp
  rw [lineStart_succ hrow, List.length_append]
  omega

/-- The first row of a text that is not empty is not empty either. -/
theorem ne_nil_of_rows {t r : Text} {rs : List Text} (ht : t ≠ []) (h : rows t = r :: rs) :
    r ≠ [] := by
  revert h
  fun_cases rows t with
  | case1 => exact absurd rfl ht
  | case2 t | case3 c t _ _ =>
    intro h
    obtain ⟨rfl, -⟩ := List.cons.inj h
    exact List.cons_ne_nil _ _
  | case4 c t _ _ =>
    intro h
    cases hrows : rows t with
    | nil => exact absurd hrows (rows_ne_nil t)
    | cons r' rs' =>
      rw [hrows, consRow] at h
      obtain ⟨rfl, -⟩ := List.cons.inj h
      exact List.cons_ne_nil _ _

/-- **No line starts inside a line break.** -/
theorem not_severs_of_rows {t : Text} {full rest : List Text} (h : rows t = full ++ rest) :
    ¬ Severs full.flatten rest.flatten := by
  fun_induction rows t generalizing full with
  | case1 =>
    rintro ⟨hlast, hhead⟩
    cases full with
    | nil => cases hlast
    | cons r full =>
      obtain ⟨rfl, hnil⟩ := List.cons.inj h
      obtain ⟨rfl, rfl⟩ := List.append_eq_nil_iff.mp hnil.symm
      cases hhead
  | case2 t ih =>
    rintro ⟨hlast, hhead⟩
    cases full with
    | nil => cases hlast
    | cons r full =>
      obtain ⟨rfl, hrest⟩ := List.cons.inj h
      rw [List.flatten_cons] at hlast
      by_cases hfull : full.flatten = []
      · rw [hfull] at hlast
        cases hlast
      · rw [List.getLast?_append_of_ne_nil _ hfull] at hlast
        exact ih hrest ⟨hlast, hhead⟩
  | case3 c t hpair hc ih =>
    rintro ⟨hlast, hhead⟩
    cases full with
    | nil => cases hlast
    | cons r full =>
      obtain ⟨rfl, hrest⟩ := List.cons.inj h
      rw [List.flatten_cons] at hlast
      by_cases hfull : full.flatten = []
      · -- the break stands right before the next line, which then begins with a line feed
        rw [hfull] at hlast
        have hcr : c = '\r' := Option.some.inj hlast
        have ht : rest.flatten = t := by
          have hflat := congrArg List.flatten (show rows t = full ++ rest from hrest)
          rw [flatten_rows, List.flatten_append, hfull] at hflat
          exact hflat.symm
        rw [ht] at hhead
        obtain ⟨t', rfl⟩ := List.head?_eq_some_iff.mp hhead
        exact hpair t' hcr rfl
      · rw [List.getLast?_append_of_ne_nil _ hfull] at hlast
        exact ih hrest ⟨hlast, hhead⟩
  | case4 c t hpair hc ih =>
    rintro ⟨hlast, hhead⟩
    obtain ⟨r, rs, hr⟩ := List.exists_cons_of_ne_nil (rows_ne_nil t)
    rw [hr, consRow] at h
    cases full with
    | nil => cases hlast
    | cons r' full =>
      obtain ⟨rfl, hrest⟩ := List.cons.inj h
      rw [List.flatten_cons, List.cons_append] at hlast
      by_cases hnil : r ++ full.flatten = []
      · rw [hnil] at hlast
        have hcr : c = '\r' := Option.some.inj hlast
        exact hc (.inr hcr)
      · rw [List.getLast?_cons_of_ne_nil hnil] at hlast
        have hrows : rows t = (r :: full) ++ rest := by
          rw [hr, hrest]
          rfl
        exact ih hrows ⟨hlast, hhead⟩

/-! ## 3. The offset of a place -/

/-- **The offset of a place on a line that exists**: the start of the line, and as many characters
    of it as fit into the column. -/
theorem offset?_of_line {t line : Text} {p : Position} (h : (Text.lines t)[p.line]? = some line) :
    offset? t p = some (lineStart t p.line + Text.charsWithin line p.column) := by
  obtain ⟨full, b, rest, hrows, hlen, hstart, hcut⟩ := exists_cut_of_line h
  have hrow : (rows t)[p.line]? = some (line ++ b) := by
    rw [hrows, ← hlen]
    simp
  have hbare : bare (line ++ b) = line := by
    rw [← Text.map_bare_rows, List.getElem?_map, hrow] at h
    exact Option.some.inj h
  have htake : (rows t).take p.line = full := by
    rw [hrows, ← hlen, List.take_left]
  have hmin : min (Text.width full.flatten + p.column)
      (Text.width full.flatten + Text.width line) =
      Text.width full.flatten + min p.column (Text.width line) := by omega
  have hclamp : Text.charsWithin line (min p.column (Text.width line)) =
      Text.charsWithin line p.column := by
    rcases Nat.le_total p.column (Text.width line) with hle | hle
    · rw [Nat.min_eq_left hle]
    · rw [Nat.min_eq_right hle, Text.charsWithin_of_width_le hle,
        Text.charsWithin_of_width_le (Nat.le_refl _)]
  have hchars : Text.charsWithin t
      (Text.width full.flatten + min p.column (Text.width line)) =
      lineStart t p.line + Text.charsWithin line p.column := by
    rw [← hstart, hcut, Text.charsWithin_append_add,
      Text.charsWithin_append_of_le _ _ (Nat.min_le_right _ _), hclamp]
  simp only [offset?, hrow, htake, hbare, hmin, hchars]

/-- A place is resolved exactly if its line exists. -/
theorem offset?_eq_none_iff {t : Text} {p : Position} :
    offset? t p = none ↔ (rows t).length ≤ p.line := by
  rw [length_rows, ← List.getElem?_eq_none_iff]
  cases hline : (Text.lines t)[p.line]? with
  | some line =>
    rw [offset?_of_line hline]
    simp
  | none =>
    have hrow : (rows t)[p.line]? = none := by
      rw [List.getElem?_eq_none_iff, length_rows, ← List.getElem?_eq_none_iff]
      exact hline
    simp only [offset?, hrow]

/-- What is resolved has its line. -/
theorem exists_line_of_offset? {t : Text} {p : Position} {o : Nat} (h : offset? t p = some o) :
    ∃ line, (Text.lines t)[p.line]? = some line ∧
      o = lineStart t p.line + Text.charsWithin line p.column := by
  cases hline : (Text.lines t)[p.line]? with
  | none =>
    rw [List.getElem?_eq_none_iff, ← length_rows] at hline
    rw [offset?_eq_none_iff.mpr hline] at h
    cases h
  | some line =>
    rw [offset?_of_line hline] at h
    exact ⟨line, rfl, (Option.some.inj h).symm⟩

/-- A place inside a line or at one of its ends is not inside a line break. -/
theorem not_severs_of_line {t line : Text} {i k : Nat} (h : (Text.lines t)[i]? = some line)
    (hk : k ≤ line.length) :
    ¬ Severs (t.take (lineStart t i + k)) (t.drop (lineStart t i + k)) := by
  obtain ⟨full, b, rest, hrows, -, hstart, hcut⟩ := exists_cut_of_line h
  have htake : t.take (lineStart t i + k) = full.flatten ++ line.take k := by
    rw [← hstart, hcut, List.take_length_add_append, List.take_append_of_le_length hk]
  have hdrop : t.drop (lineStart t i + k) = line.drop k ++ (b ++ rest.flatten) := by
    rw [← hstart, hcut, List.drop_length_add_append, List.drop_append_of_le_length hk]
  rw [htake, hdrop]
  rintro ⟨hlast, hhead⟩
  cases hline : line.take k with
  | nil =>
    -- nothing of the line stands before the place: it is the start of the line
    have hall : line.drop k = line := by
      have hboth := List.take_append_drop k line
      rwa [hline, List.nil_append] at hboth
    rw [hline, List.append_nil] at hlast
    rw [hall, ← List.append_assoc, ← List.flatten_cons] at hhead
    exact not_severs_of_rows hrows ⟨hlast, hhead⟩
  | cons c l =>
    rw [hline, List.getLast?_append_of_ne_nil _ (List.cons_ne_nil c l), ← hline] at hlast
    have hmem : '\r' ∈ line := List.mem_of_mem_take (List.mem_of_getLast? hlast)
    have hbreak := Text.not_isBreak_of_mem_line (List.mem_of_getElem? h) '\r' hmem
    cases hbreak

end Document

/-! ## 4. The order of places -/

/-- Whether a place comes before another or is the same: by line, then by column. -/
def Position.UpTo (p q : Position) : Prop :=
  p.line < q.line ∨ p.line = q.line ∧ p.column ≤ q.column

instance (p q : Position) : Decidable (p.UpTo q) := inferInstanceAs (Decidable (_ ∨ _))

namespace Document

/-- **Places that follow one another have offsets that do.** -/
theorem offset?_mono {t : Text} {p q : Position} {a b : Nat} (h : p.UpTo q)
    (ha : offset? t p = some a) (hb : offset? t q = some b) : a ≤ b := by
  obtain ⟨line, hline, rfl⟩ := exists_line_of_offset? ha
  obtain ⟨line', hline', rfl⟩ := exists_line_of_offset? hb
  rcases h with hlt | ⟨heq, hcolumn⟩
  · have hfits := (Text.isGreatest_charsWithin line p.column).1.1
    have hend := lineStart_add_length_le hline
    have hnext : lineStart t (p.line + 1) ≤ lineStart t q.line := lineStart_mono t hlt
    omega
  · rw [heq, hline'] at hline
    obtain rfl : line' = line := Option.some.inj hline
    have hmono := Text.charsWithin_mono line' hcolumn
    rw [heq]
    omega

/-! ## 5. The place of an offset -/

/-- The place of a cut is on a line that starts before the cut, and the open line is what stands
    between. -/
theorem lineStart_place {p s : Text} (h : ¬ Severs p s) :
    lineStart (p ++ s) (place p).line + (openLine p).length = p.length ∧
      p.drop (lineStart (p ++ s) (place p).line) = openLine p := by
  obtain ⟨full, hlen, hrows, happ⟩ := rows_append p s h
  have hp : full.flatten ++ openLine p = p := by
    have hflat := flatten_rows p
    rw [hrows] at hflat
    simpa using hflat
  have hstart : lineStart (p ++ s) (place p).line = full.flatten.length := by
    rw [lineStart, place, happ, ← hlen, List.take_left]
  constructor
  · rw [hstart, ← List.length_append, hp]
  · rw [hstart]
    conv_lhs => rw [← hp]
    exact List.drop_left

/-- **The place of an offset is on the line that the offset belongs to.** -/
theorem onLine_place {t : Text} {o : Nat} (ho : o < t.length)
    (h : ¬ Severs (t.take o) (t.drop o)) : OnLine t o (place (t.take o)).line := by
  obtain ⟨full, hlen, hrows, happ⟩ := rows_append (t.take o) (t.drop o) h
  obtain ⟨hstart, -⟩ := lineStart_place h
  rw [List.take_append_drop] at happ hstart
  rw [List.length_take_of_le (Nat.le_of_lt ho)] at hstart
  obtain ⟨r, rs, hr⟩ := List.exists_cons_of_ne_nil (rows_ne_nil (t.drop o))
  have hrow : (rows t)[(place (t.take o)).line]? = some (openLine (t.take o) ++ r) := by
    rw [happ, hr, place, ← hlen]
    simp [glue]
  have hrest : t.drop o ≠ [] := fun hnil => by
    have hle := List.drop_eq_nil_iff.mp hnil
    omega
  have hpos : 0 < r.length := List.length_pos_of_ne_nil (ne_nil_of_rows hrest hr)
  refine ⟨by omega, ?_⟩
  rw [lineStart_succ hrow, List.length_append]
  omega

theorem breaks_append {p m : Text} (h : ¬ Severs p m) : breaks (p ++ m) = breaks p + breaks m := by
  obtain ⟨full, hlen, -, happ⟩ := Text.lines_append p m h
  obtain ⟨l, ls, hl⟩ := List.exists_cons_of_ne_nil (Text.lines_ne_nil m)
  have hcount := congrArg List.length happ
  have hcount' := Text.length_lines m
  rw [Text.length_lines, List.length_append, hlen, hl, glue, List.length_cons] at hcount
  rw [hl, List.length_cons] at hcount'
  omega

theorem breaks_pos_of_mem {t : Text} (h : '\n' ∈ t) : 0 < breaks t := by
  fun_induction breaks t with
  | case1 => cases h
  | case2 | case3 => omega
  | case4 c t _ hc ih =>
    rcases List.mem_cons.mp h with rfl | h
    · exact absurd (.inl rfl) hc
    · exact ih h

/-- Places with a line feed between them are on different lines. -/
theorem OnLine.lt_of_lineFeed {t : Text} {o o' i i' j : Nat} (h : OnLine t o i)
    (h' : OnLine t o' i') (hsev : ¬ Severs (t.take o) (t.drop o))
    (hsev' : ¬ Severs (t.take o') (t.drop o')) (ho' : o' < t.length) (hoj : o ≤ j) (hjo : j < o')
    (hfeed : t[j]? = some '\n') : i < i' := by
  have hi : i = breaks (t.take o) := h.unique (onLine_place (by omega) hsev)
  have hi' : i' = breaks (t.take o') := h'.unique (onLine_place ho' hsev')
  -- what stands between the two places holds a break and does not cut one
  have hcut : t.take o' = t.take o ++ (t.drop o).take (o' - o) := by
    rw [← List.take_add, Nat.add_sub_cancel' (by omega)]
  have hmem : '\n' ∈ (t.drop o).take (o' - o) := by
    refine List.mem_of_getElem? (i := j - o) ?_
    rw [List.getElem?_take, if_pos (by omega), List.getElem?_drop, Nat.add_sub_cancel' hoj, hfeed]
  have hkeeps : ¬ Severs (t.take o) ((t.drop o).take (o' - o)) := by
    rintro ⟨hlast, hhead⟩
    rw [List.head?_take, if_neg (by omega)] at hhead
    exact hsev ⟨hlast, hhead⟩
  have hpos := breaks_pos_of_mem hmem
  rw [hi, hi', hcut, breaks_append hkeeps]
  omega

/-! ## 6. Places and ranges -/

/-- **Ranges and offsets**: a range is refused exactly if one of its lines does not exist or its
    first offset is behind the second one. -/
theorem apply_range_eq_ok_iff {t : Text} {range : Range} (new : Text) :
    (∃ t', Edit.apply ⟨some range, new⟩ t = .ok t') ↔
      ∃ a b, offset? t range.start = some a ∧ offset? t range.stop = some b ∧ a ≤ b := by
  simp only [Edit.apply]
  cases ha : offset? t range.start with
  | none => simp
  | some a =>
    cases hb : offset? t range.stop with
    | none => simp
    | some b =>
      by_cases hab : a ≤ b
      · simp [hab]
      · simp [hab]

theorem exists_offset?_of_lt {t : Text} {p : Position} (h : p.line < (rows t).length) :
    ∃ o, offset? t p = some o := by
  refine Option.ne_none_iff_exists'.mp fun hnone => ?_
  have hle := offset?_eq_none_iff.mp hnone
  omega

/-- **Places are resolved within their lines.** There is an offset exactly for the lines that
    exist: the start of the line and the largest number of its characters that are no wider than
    the column. So the offset is in the text, at or before the end of its line, and not inside a
    line break. Places that follow one another have offsets that do, and the place of an offset
    that is not inside a line break leads back to it. A range on lines that exist is not refused
    if its ends are in order, and if it is refused, it starts at an offset behind the one where it
    ends. -/
theorem places_resolve (t : Text) :
    (∀ p : Position, offset? t p = none ↔ (rows t).length ≤ p.line) ∧
    (∀ (p : Position) (line : Text), (Text.lines t)[p.line]? = some line →
      ∃ k, IsGreatest {k | k ≤ line.length ∧ Text.width (line.take k) ≤ p.column} k ∧
        offset? t p = some (lineStart t p.line + k)) ∧
    (∀ (p : Position) (o : Nat), offset? t p = some o →
      o ≤ t.length ∧ ¬ Severs (t.take o) (t.drop o) ∧
      ∃ line, (Text.lines t)[p.line]? = some line ∧ lineStart t p.line ≤ o ∧
        o ≤ lineStart t p.line + line.length) ∧
    (∀ p q : Position, p.UpTo q → q.line < (rows t).length →
      ∃ a b, offset? t p = some a ∧ offset? t q = some b ∧ a ≤ b) ∧
    (∀ o ≤ t.length, ¬ Severs (t.take o) (t.drop o) →
      let q := place (t.take o)
      offset? t q = some o ∧ q.column = Text.width ((t.take o).drop (lineStart t q.line)) ∧
        (o < t.length → OnLine t o q.line)) ∧
    (∀ (range : Range) (new : Text), range.start.line < (rows t).length →
      range.stop.line < (rows t).length →
      (range.start.UpTo range.stop → ∃ t', Edit.apply ⟨some range, new⟩ t = .ok t') ∧
      (∀ e, Edit.apply ⟨some range, new⟩ t = .error e →
        ∃ a b, offset? t range.start = some a ∧ offset? t range.stop = some b ∧ b < a)) := by
  have hordered : ∀ p q : Position, p.UpTo q → q.line < (rows t).length →
      ∃ a b, offset? t p = some a ∧ offset? t q = some b ∧ a ≤ b := by
    intro p q hpq hq
    have hp : p.line < (rows t).length := by
      rcases hpq with hlt | ⟨heq, -⟩ <;> omega
    obtain ⟨a, ha⟩ := exists_offset?_of_lt hp
    obtain ⟨b, hb⟩ := exists_offset?_of_lt hq
    exact ⟨a, b, ha, hb, offset?_mono hpq ha hb⟩
  refine ⟨fun p => offset?_eq_none_iff, fun p line hline => ?_, fun p o ho => ?_, hordered,
    fun o ho hsev => ?_, fun range new hstart hstop => ⟨fun h => ?_, fun e he => ?_⟩⟩
  · exact ⟨_, Text.isGreatest_charsWithin line p.column, offset?_of_line hline⟩
  · obtain ⟨line, hline, rfl⟩ := exists_line_of_offset? ho
    have hfits : Text.charsWithin line p.column ≤ line.length :=
      (Text.isGreatest_charsWithin line p.column).1.1
    have hnext := lineStart_add_length_le hline
    have hend := lineStart_le_length t (p.line + 1)
    exact ⟨by omega, not_severs_of_line hline hfits, line, hline, by omega, by omega⟩
  · have hcut := List.take_append_drop o t
    have hlen : (t.take o).length = o := List.length_take_of_le ho
    have hback := offset?_place (t.take o) (t.drop o) hsev
    obtain ⟨-, hopen⟩ := lineStart_place hsev
    rw [hcut, hlen] at hback
    rw [hcut] at hopen
    exact ⟨hback, by rw [hopen]; rfl, fun hlt => onLine_place hlt hsev⟩
  · exact (apply_range_eq_ok_iff new).mpr (hordered _ _ h hstop)
  · obtain ⟨a, ha⟩ := exists_offset?_of_lt hstart
    obtain ⟨b, hb⟩ := exists_offset?_of_lt hstop
    refine ⟨a, b, ha, hb, Nat.lt_of_not_le fun hab => ?_⟩
    obtain ⟨t', ht'⟩ := (apply_range_eq_ok_iff new).mpr ⟨a, b, ha, hb, hab⟩
    rw [ht'] at he
    cases he

/-- A character of two units and both characters of a break: a column inside the pair and one past
    the end, the way back from the offset behind the break, a range whose ends are in order only
    after they were brought into the line, and one whose ends are not. -/
theorem places_resolve_beside_pair :
    (∃ k, IsGreatest {k | k ≤ 2 ∧ Text.width (['a', '😀'].take k) ≤ 2} k ∧
      offset? ['a', '😀', '\r', '\n', 'b'] ⟨0, 2⟩ = some (0 + k)) ∧
    (¬ Severs ['a', '😀', '\r', '\n'] ['b'] ∧
      offset? ['a', '😀', '\r', '\n', 'b'] ⟨1, 0⟩ = some 4) ∧
    (∃ a b, offset? ['a', '😀', '\r', '\n', 'b'] ⟨0, 2⟩ = some a ∧
      offset? ['a', '😀', '\r', '\n', 'b'] ⟨0, 9⟩ = some b ∧ a ≤ b) ∧
    (∃ t', Edit.apply ⟨some ⟨⟨0, 3⟩, ⟨0, 9⟩⟩, ['c']⟩ ['a', '😀', '\r', '\n', 'b'] = .ok t') ∧
    (Edit.apply ⟨some ⟨⟨0, 9⟩, ⟨0, 3⟩⟩, ['c']⟩ ['a', '😀', '\r', '\n', 'b'] =
      .ok ['a', '😀', 'c', '\r', '\n', 'b']) ∧
    ∃ a b, offset? ['a', '😀', '\r', '\n', 'b'] ⟨1, 0⟩ = some a ∧
      offset? ['a', '😀', '\r', '\n', 'b'] ⟨0, 9⟩ = some b ∧ b < a := by
  obtain ⟨-, hline, -, hordered, hback, hrange⟩ :=
    places_resolve ['a', '😀', '\r', '\n', 'b']
  have hsev : ¬ Severs ['a', '😀', '\r', '\n'] ['b'] := by decide
  refine ⟨hline ⟨0, 2⟩ ['a', '😀'] rfl, ⟨hsev, (hback 4 (by decide) hsev).1⟩,
    hordered _ _ (by decide) (by decide), ?_, rfl, ?_⟩
  · exact (hrange ⟨⟨0, 3⟩, ⟨0, 9⟩⟩ ['c'] (by decide) (by decide)).1 (by decide)
  · exact (hrange ⟨⟨1, 0⟩, ⟨0, 9⟩⟩ ['c'] (by decide) (by decide)).2
      (.invalidRange ⟨⟨1, 0⟩, ⟨0, 9⟩⟩) rfl

end Document

end Nsql
