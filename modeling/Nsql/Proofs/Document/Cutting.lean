/-
  File:      Nsql/Proofs/Document/Cutting.lean
  Subject:   A text is its lines and their breaks, and offsets are counted along them.

  Two functions look for line breaks. One cuts a text into lines and drops the breaks; the other
  counts the breaks in the first bytes of a text and does not look any further. They see the same
  breaks, except where the first bytes end between a carriage return and its line feed.

  * `IsCut` -- lines and breaks that make up a text, with no pair of characters taken apart;
  * `exists_isCut`, `IsCut.eq_lines` -- there are such breaks for the lines of a text, and no other
    lines have any;
  * `lineAtByte_line` -- the line of an offset, one line further down;
  * `IsCut.exists_byteOn` -- each offset belongs to one line, and how the count goes there;
  * **`lines_and_offsets_agree`** -- all of this.
-/
import Mathlib.Order.Monotone.Defs
import Nsql.Proofs.Document.Joins
import Nsql.Proofs.Document.Offsets

namespace Nsql.Text

open Document (Severs rows)

/-! ## 1. Lines and breaks that make up a text -/

/-- A text is cut into lines and breaks: put together they are the text again, one break stands
    between each two lines, no line holds a break character, and a carriage return with a line feed
    right behind it is never taken for two breaks. -/
structure IsCut (t : Text) (ls bs : List Text) : Prop where
  joined : withBreaks ls bs = t
  length_eq : bs.length + 1 = ls.length
  isLine : ∀ l ∈ ls, IsLine l
  isBreak : ∀ b ∈ bs, b ∈ lineBreaks
  whole : ∀ i, bs[i]? = some ['\r'] → ls[i + 1]? = some [] → bs[i + 1]? ≠ some ['\n']

instance (t : Text) (ls bs : List Text) : Decidable (IsCut t ls bs) :=
  decidable_of_iff
    (withBreaks ls bs = t ∧ bs.length + 1 = ls.length ∧ (∀ l ∈ ls, IsLine l) ∧
      (∀ b ∈ bs, b ∈ lineBreaks) ∧
      ∀ i, i < bs.length → bs[i]? = some ['\r'] → ls[i + 1]? = some [] → bs[i + 1]? ≠ some ['\n'])
    ⟨fun ⟨hjoined, hlen, hls, hbs, hwhole⟩ => ⟨hjoined, hlen, hls, hbs,
        fun i hi => hwhole i (List.getElem?_eq_some_iff.mp hi).1 hi⟩,
      fun h => ⟨h.joined, h.length_eq, h.isLine, h.isBreak, fun i _ => h.whole i⟩⟩

/-- The rows of a text are never parted inside a pair. -/
theorem rows_ne_lineFeed {t row : Text} {i : Nat} (h : (rows t)[i]? = some row)
    (hlast : row.getLast? = some '\r') : (rows t)[i + 1]? ≠ some ['\n'] := by
  intro hnext
  have htake : (rows t).take (i + 1) = (rows t).take i ++ [row] := by
    rw [List.take_add_one, h, Option.toList_some]
  have hdrop : (rows t).drop (i + 1) = ['\n'] :: (rows t).drop (i + 2) := by
    obtain ⟨hlt, hget⟩ := List.getElem?_eq_some_iff.mp hnext
    rw [List.drop_eq_getElem_cons hlt, hget]
  refine Document.not_severs_of_rows (List.take_append_drop (i + 1) (rows t)).symm ⟨?_, ?_⟩
  · rw [htake, List.flatten_append, List.flatten_singleton, List.getLast?_append, hlast]
    rfl
  · rw [hdrop]
    rfl

/-- **The lines of a text and breaks that fit** make it up again. -/
theorem exists_isCut (t : Text) : ∃ bs, IsCut t (lines t) bs := by
  obtain ⟨bs, hbs, hlen, hrows⟩ := exists_breaks t
  refine ⟨bs, ?_, hlen, fun l hl => not_isBreak_of_mem_line hl, hbs, fun i hi hline hnext => ?_⟩
  · rw [withBreaks, ← hrows, Document.flatten_rows]
  · obtain ⟨hlt, -⟩ := List.getElem?_eq_some_iff.mp hi
    obtain ⟨hlt', -⟩ := List.getElem?_eq_some_iff.mp hnext
    obtain ⟨l, hl⟩ : ∃ l, (lines t)[i]? = some l := ⟨_, List.getElem?_eq_getElem (by omega)⟩
    have hrow : (rows t)[i]? = some (l ++ ['\r']) := by
      rw [hrows, List.getElem?_zipWith, hl, List.getElem?_append_left hlt, hi]
    refine rows_ne_lineFeed hrow (by simp) ?_
    rw [hrows, List.getElem?_zipWith, hline, List.getElem?_append_left hlt', hnext]
    rfl

theorem severs_iff_of_mem_lineBreaks {b rest : Text} (hb : b ∈ lineBreaks) :
    Severs b rest ↔ b = ['\r'] ∧ rest.head? = some '\n' := by
  rcases mem_lineBreaks_iff.mp hb with rfl | rfl | rfl <;> simp [Severs]

/-- What begins with a line feed begins with an empty line and this break. -/
theorem eq_of_head?_withBreaks {ls bs : List Text} (hlen : bs.length + 1 = ls.length)
    (hls : ∀ l ∈ ls, IsLine l) (hbs : ∀ b ∈ bs, b ∈ lineBreaks)
    (h : (withBreaks ls bs).head? = some '\n') : ls[0]? = some [] ∧ bs[0]? = some ['\n'] := by
  cases bs with
  | nil =>
    obtain ⟨l, rfl⟩ := List.length_eq_one_iff.mp hlen.symm
    rw [withBreaks_singleton] at h
    exact absurd h (hls l List.mem_cons_self).head?_ne
  | cons b bs =>
    cases ls with
    | nil => cases hlen
    | cons l ls =>
      rw [withBreaks_cons] at h
      cases l with
      | cons c l => exact absurd h (hls (c :: l) List.mem_cons_self).head?_ne
      | nil =>
        rcases mem_lineBreaks_iff.mp (hbs b List.mem_cons_self) with rfl | rfl | rfl
        · exact ⟨rfl, rfl⟩
        · cases h
        · cases h

/-- What is cut into more than one line: a line, its break, and a rest that is cut into the other
    lines. -/
theorem IsCut.tail {t l b : Text} {ls bs : List Text} (h : IsCut t (l :: ls) (b :: bs)) :
    ∃ rest, t = l ++ (b ++ rest) ∧ ¬ Severs b rest ∧ IsCut rest ls bs := by
  have hrest : IsCut (withBreaks ls bs) ls bs :=
    ⟨rfl, Nat.succ.inj h.length_eq, fun k hk => h.isLine k (List.mem_cons_of_mem _ hk),
      fun k hk => h.isBreak k (List.mem_cons_of_mem _ hk), fun i => h.whole (i + 1)⟩
  refine ⟨withBreaks ls bs, ?_, fun hsev => ?_, hrest⟩
  · rw [← withBreaks_cons, h.joined]
  · obtain ⟨rfl, hhead⟩ :=
      (severs_iff_of_mem_lineBreaks (h.isBreak b List.mem_cons_self)).mp hsev
    obtain ⟨hline, hnext⟩ :=
      eq_of_head?_withBreaks hrest.length_eq hrest.isLine hrest.isBreak hhead
    exact h.whole 0 rfl hline hnext

/-- What is cut into one line. -/
theorem IsCut.eq_of_nil {t : Text} {ls : List Text} (h : IsCut t ls []) :
    ls = [t] ∧ IsLine t := by
  obtain ⟨l, rfl⟩ := List.length_eq_one_iff.mp h.length_eq.symm
  have ht := h.joined
  rw [withBreaks_singleton] at ht
  subst ht
  exact ⟨rfl, h.isLine l List.mem_cons_self⟩

/-- An induction along the lines of a text that is cut: one line is left, or a line and its break
    stand in front of a text that is cut. -/
@[elab_as_elim]
theorem IsCut.induction {motive : (t : Text) → (ls bs : List Text) → IsCut t ls bs → Prop}
    (last : ∀ l h, IsLine l → motive l [l] [] h)
    (more : ∀ l b rest ls bs h, IsLine l → b ∈ lineBreaks → ¬ Severs b rest →
      ∀ hrest, motive rest ls bs hrest → motive (l ++ (b ++ rest)) (l :: ls) (b :: bs) h)
    {t : Text} {ls bs : List Text} (h : IsCut t ls bs) : motive t ls bs h := by
  induction bs generalizing t ls with
  | nil =>
    obtain ⟨rfl, ht⟩ := h.eq_of_nil
    exact last t h ht
  | cons b bs ih =>
    cases ls with
    | nil => cases h.length_eq
    | cons l ls =>
      obtain ⟨rest, rfl, hsev, hrest⟩ := h.tail
      exact more l b rest ls bs h (h.isLine l List.mem_cons_self) (h.isBreak b List.mem_cons_self)
        hsev hrest (ih hrest)

/-- **No other lines** make up a text. -/
theorem IsCut.eq_lines {t : Text} {ls bs : List Text} (h : IsCut t ls bs) : ls = lines t := by
  induction h using IsCut.induction with
  | last l _ hl => rw [hl.lines_eq]
  | more l b rest ls bs _ hl hb hsev _ ih => rw [hl.lines_append_break hb hsev, ih]

/-! ## 2. The line of an offset, one line further down -/

theorem size_mem_lineBreaks {b : Text} (hb : b ∈ lineBreaks) :
    size b = 1 ∨ size b = 2 ∧ b = ['\r', '\n'] := by
  rcases mem_lineBreaks_iff.mp hb with rfl | rfl | rfl
  · exact .inl rfl
  · exact .inr ⟨rfl, rfl⟩
  · exact .inl rfl

/-- A line has no break to count. -/
theorem IsLine.lineAtByte_eq {l : Text} (hl : IsLine l) (o : Nat) : lineAtByte l o = 0 := by
  have hlt := lineAtByte_lt l o
  rw [hl.lines_eq, List.length_singleton] at hlt
  omega

/-- A break counts from its first byte on. -/
theorem lineAtByte_break {b rest : Text} (hb : b ∈ lineBreaks) (h : ¬ Severs b rest) (n : Nat) :
    lineAtByte (b ++ rest) (n + 1) = lineAtByte rest (n + 1 - size b) + 1 := by
  rcases mem_lineBreaks_iff.mp hb with rfl | rfl | rfl
  · rw [List.singleton_append, lineAtByte, if_pos (.inl rfl)]
    · rfl
    · intro t hcr
      cases hcr
  · rw [List.cons_append, List.singleton_append, lineAtByte]
    split
    · rename_i hn
      subst hn
      rw [show 0 + 1 - size ['\r', '\n'] = 0 from rfl, lineAtByte.eq_1]
    · rfl
  · rw [List.singleton_append, lineAtByte, if_pos (.inr rfl)]
    · rfl
    · intro t _ hrest
      exact h ⟨rfl, by rw [hrest]; rfl⟩

/-- **The line of an offset, one line further down**: up to the end of the first line nothing
    counts; from there on its break does, and the rest is counted from the end of the break. An
    offset inside the break counts as its end. -/
theorem lineAtByte_line {l b rest : Text} (hl : IsLine l) (hb : b ∈ lineBreaks)
    (h : ¬ Severs b rest) (o : Nat) :
    lineAtByte (l ++ (b ++ rest)) o =
      if o ≤ size l then 0 else lineAtByte rest (o - (size l + size b)) + 1 := by
  split
  · rename_i hle
    rw [lineAtByte_append_of_le _ _ hle, hl.lineAtByte_eq]
  · rename_i hgt
    obtain ⟨n, rfl⟩ : ∃ n, o = size l + (n + 1) := ⟨o - size l - 1, by omega⟩
    rw [lineAtByte_append_add l _ _ fun hs => hl.getLast?_ne hs.1,
      Document.breaks_eq_zero hl.openLine_eq, lineAtByte_break hb h, Nat.zero_add,
      Nat.add_sub_add_left]

/-- **The line of an offset never goes back.** -/
theorem monotone_lineAtByte (t : Text) : Monotone (lineAtByte t) := by
  obtain ⟨bs, hcut⟩ := exists_isCut t
  generalize lines t = ls at hcut
  induction hcut using IsCut.induction with
  | last l _ hl =>
    intro m n _
    rw [hl.lineAtByte_eq, hl.lineAtByte_eq]
  | more l b rest ls bs _ hl hb hsev _ ih =>
    intro m n hmn
    rw [lineAtByte_line hl hb hsev, lineAtByte_line hl hb hsev]
    split
    · exact Nat.zero_le _
    · rw [if_neg (by omega)]
      exact Nat.succ_le_succ (ih (by omega))

/-! ## 3. Offsets inside a pair -/

/-- A byte offset lies inside a pair if it parts a carriage return from the line feed behind it. -/
def SeversAt (t : Text) (o : Nat) : Prop := ∃ p s, p ++ s = t ∧ size p = o ∧ Severs p s

instance (t : Text) (o : Nat) : Decidable (SeversAt t o) :=
  decidable_of_iff
    (∃ k ∈ List.range (t.length + 1), size (t.take k) = o ∧ Severs (t.take k) (t.drop k))
    ⟨fun ⟨k, _, hsize, hsev⟩ => ⟨t.take k, t.drop k, List.take_append_drop k t, hsize, hsev⟩,
      fun ⟨p, s, hcut, hsize, hsev⟩ => by
        refine ⟨p.length, ?_, ?_⟩
        · rw [← hcut, List.mem_range, List.length_append]
          omega
        · rw [← hcut, List.take_left, List.drop_left]
          exact ⟨hsize, hsev⟩⟩

/-- **The pairs of texts that are put together** are those of the two, if no new one comes about. -/
theorem seversAt_append_iff {p s : Text} (h : ¬ Severs p s) (o : Nat) :
    SeversAt (p ++ s) o ↔ SeversAt p o ∨ ∃ n, o = size p + n ∧ SeversAt s n := by
  constructor
  · intro ⟨q, r, hcut, hsize, hsev⟩
    -- the cut falls into the first text or into the second one; between them there is no pair
    rcases List.append_eq_append_iff.mp hcut with ⟨u, hp, hr⟩ | ⟨v, hq, hs⟩
    · cases u with
      | nil =>
        rw [List.append_nil] at hp
        rw [List.nil_append] at hr
        rw [← hp, hr] at hsev
        exact absurd hsev h
      | cons c u =>
        rw [hr] at hsev
        exact .inl ⟨q, c :: u, hp.symm, hsize, hsev⟩
    · cases v with
      | nil =>
        rw [List.append_nil] at hq
        rw [List.nil_append] at hs
        rw [hq, ← hs] at hsev
        exact absurd hsev h
      | cons c v =>
        rw [hq, Severs, List.getLast?_append_of_ne_nil _ (List.cons_ne_nil c v)] at hsev
        refine .inr ⟨size (c :: v), ?_, c :: v, r, hs.symm, rfl, hsev⟩
        rw [← hsize, hq, size_append]
  · intro hor
    rcases hor with ⟨q, u, hcut, hsize, hlast, hhead⟩ | ⟨n, hn, v, r, hcut, hsize, hlast, hhead⟩
    · refine ⟨q, u ++ s, by rw [← List.append_assoc, hcut], hsize, hlast, ?_⟩
      rw [List.head?_append, hhead]
      rfl
    · refine ⟨p ++ v, r, by rw [List.append_assoc, hcut], ?_, ?_, hhead⟩
      · rw [size_append, hsize, hn]
      · rw [List.getLast?_append, hlast]
        rfl

theorem IsLine.not_seversAt {l : Text} (hl : IsLine l) (o : Nat) : ¬ SeversAt l o := by
  intro ⟨p, s, hcut, _, hlast, _⟩
  have hmem : '\r' ∈ l := by
    rw [← hcut]
    exact List.mem_append_left s (List.mem_of_getLast? hlast)
  have hno := hl '\r' hmem
  cases hno

theorem size_pos {t : Text} {c : Char} (h : c ∈ t) : 0 < size t := by
  obtain ⟨p, s, rfl⟩ := List.append_of_mem h
  have hpos := bytesOf_pos c
  rw [size_append, size_cons]
  omega

/-- Of the breaks only the pair has an inside. -/
theorem seversAt_lineBreak_iff {b : Text} (hb : b ∈ lineBreaks) (o : Nat) :
    SeversAt b o ↔ size b = 2 ∧ o = 1 := by
  constructor
  · intro ⟨p, s, hcut, hsize, hlast, hhead⟩
    -- both characters of the break are needed, one on each side
    have hsum : size p + size s = size b := by rw [← size_append, hcut]
    have hp := size_pos (List.mem_of_getLast? hlast)
    have hs := size_pos (List.mem_of_head? hhead)
    rcases size_mem_lineBreaks hb with h1 | ⟨h2, -⟩
    · omega
    · exact ⟨h2, by omega⟩
  · intro ⟨h2, ho⟩
    obtain ⟨-, rfl⟩ := (size_mem_lineBreaks hb).resolve_left (by omega)
    exact ⟨['\r'], ['\n'], rfl, ho.symm, rfl, rfl⟩

/-- **The pairs of a text, one line further down**: the first break, or one in the rest. -/
theorem seversAt_line_iff {l b rest : Text} (hl : IsLine l) (hb : b ∈ lineBreaks)
    (h : ¬ Severs b rest) (o : Nat) :
    SeversAt (l ++ (b ++ rest)) o ↔
      size b = 2 ∧ o = size l + 1 ∨ ∃ n, o = size l + size b + n ∧ SeversAt rest n := by
  rw [seversAt_append_iff (fun hs => hl.getLast?_ne hs.1), or_iff_right (hl.not_seversAt o)]
  constructor
  · intro ⟨n, hn, hsev⟩
    rcases (seversAt_append_iff h n).mp hsev with hin | ⟨m, hm, hrest⟩
    · obtain ⟨h2, h1⟩ := (seversAt_lineBreak_iff hb n).mp hin
      exact .inl ⟨h2, by rw [hn, h1]⟩
    · exact .inr ⟨m, by rw [hn, hm, Nat.add_assoc], hrest⟩
  · intro hor
    rcases hor with ⟨h2, ho⟩ | ⟨n, hn, hrest⟩
    · have hin := (seversAt_lineBreak_iff hb 1).mpr ⟨h2, rfl⟩
      exact ⟨1, ho, (seversAt_append_iff h 1).mpr (.inl hin)⟩
    · refine ⟨size b + n, by rw [hn, Nat.add_assoc], ?_⟩
      exact (seversAt_append_iff h _).mpr (.inr ⟨n, rfl, hrest⟩)

/-! ## 4. The line that an offset belongs to -/

/-- The byte at which a line starts: before it stand the lines before it, with their breaks. -/
def startByte (ls bs : List Text) (i : Nat) : Nat := size (withBreaks (ls.take i) (bs.take i))

@[simp] theorem startByte_zero (ls bs : List Text) : startByte ls bs 0 = 0 := rfl

@[simp] theorem startByte_succ (l b : Text) (ls bs : List Text) (i : Nat) :
    startByte (l :: ls) (b :: bs) (i + 1) = size l + size b + startByte ls bs i := by
  rw [startByte, List.take_succ_cons, List.take_succ_cons, withBreaks_cons, size_append,
    size_append, Nat.add_assoc, startByte]

/-- A byte offset belongs to a line if it is in the line or in the break behind it. To the last
    line belong all offsets from its start on, also those past the end of the text. -/
structure ByteOn (ls bs : List Text) (o i : Nat) : Prop where
  le : i ≤ bs.length
  start : startByte ls bs i ≤ o
  stop : i < bs.length → o < startByte ls bs (i + 1)

/-- If there is one line only, all offsets belong to it. -/
theorem byteOn_last_iff {ls : List Text} {o i : Nat} : ByteOn ls [] o i ↔ i = 0 := by
  constructor
  · intro h
    exact Nat.eq_zero_of_le_zero h.le
  · intro hi
    rw [hi]
    exact ⟨Nat.le_refl 0, Nat.zero_le o, fun h => absurd h (Nat.lt_irrefl 0)⟩

theorem byteOn_zero_iff {l b : Text} {ls bs : List Text} {o : Nat} :
    ByteOn (l :: ls) (b :: bs) o 0 ↔ o < size l + size b := by
  constructor
  · intro h
    have hstop := h.stop (Nat.zero_lt_succ _)
    rwa [startByte_succ, startByte_zero] at hstop
  · intro h
    exact ⟨Nat.zero_le _, Nat.zero_le _, fun _ => by rwa [startByte_succ, startByte_zero]⟩

theorem byteOn_succ_iff {l b : Text} {ls bs : List Text} {o i : Nat} :
    ByteOn (l :: ls) (b :: bs) o (i + 1) ↔
      size l + size b ≤ o ∧ ByteOn ls bs (o - (size l + size b)) i := by
  constructor
  · intro ⟨hle, hstart, hstop⟩
    rw [startByte_succ] at hstart
    refine ⟨by omega, Nat.le_of_succ_le_succ hle, by omega, fun hlt => ?_⟩
    have hend := hstop (Nat.succ_lt_succ hlt)
    rw [startByte_succ] at hend
    omega
  · intro ⟨hle, hin, hstart, hstop⟩
    refine ⟨Nat.succ_le_succ hin, by rw [startByte_succ]; omega, fun hlt => ?_⟩
    have hend := hstop (Nat.lt_of_succ_lt_succ hlt)
    rw [startByte_succ]
    omega

/-- **Each offset belongs to one line**, and the breaks before it count up to this line. Inside a
    pair one more is counted, since the carriage return is taken for a break of its own. -/
theorem IsCut.exists_byteOn {t : Text} {ls bs : List Text} (h : IsCut t ls bs) (o : Nat) :
    ∃ i, (∀ j, ByteOn ls bs o j ↔ j = i) ∧ (¬ SeversAt t o → lineAtByte t o = i) ∧
      (SeversAt t o → lineAtByte t o = i + 1) := by
  induction h using IsCut.induction generalizing o with
  | last l _ hl =>
    exact ⟨0, fun j => byteOn_last_iff, fun _ => hl.lineAtByte_eq o,
      fun hsev => absurd hsev (hl.not_seversAt o)⟩
  | more l b rest ls bs _ hl hb hsev _ ih =>
    have hsize := size_mem_lineBreaks hb
    rw [lineAtByte_line hl hb hsev, seversAt_line_iff hl hb hsev]
    rcases Nat.lt_or_ge o (size l + size b) with hlt | hge
    · -- in the first line or in its break
      refine ⟨0, fun j => ?_, fun hout => ?_, fun hin => ?_⟩
      · cases j with
        | zero => exact iff_of_true (byteOn_zero_iff.mpr hlt) rfl
        | succ j =>
          refine iff_of_false (fun hj => ?_) (Nat.succ_ne_zero j)
          have hge := (byteOn_succ_iff.mp hj).1
          omega
      · refine if_pos (Nat.le_of_not_lt fun hin => hout (.inl ?_))
        omega
      · obtain ⟨-, rfl⟩ := hin.resolve_right fun ⟨n, hn, _⟩ => by omega
        rw [if_neg (by omega), show size l + 1 - (size l + size b) = 0 by omega, lineAtByte.eq_1]
    · -- behind the break: as in the rest, one line further down
      obtain ⟨n, rfl⟩ := Nat.exists_eq_add_of_le hge
      obtain ⟨i, hi, hout, hin⟩ := ih n
      have hrest : (size b = 2 ∧ size l + size b + n = size l + 1 ∨
          ∃ m, size l + size b + n = size l + size b + m ∧ SeversAt rest m) ↔ SeversAt rest n := by
        constructor
        · intro hor
          rcases hor with ⟨h2, heq⟩ | ⟨m, heq, hm⟩
          · omega
          · rwa [Nat.add_left_cancel heq]
        · intro hn
          exact .inr ⟨n, rfl, hn⟩
      rw [hrest, if_neg (by omega), Nat.add_sub_cancel_left]
      refine ⟨i + 1, fun j => ?_, fun h => by rw [hout h], fun h => by rw [hin h]⟩
      cases j with
      | zero =>
        refine iff_of_false (fun hj => ?_) (Nat.succ_ne_zero i).symm
        have hlt := byteOn_zero_iff.mp hj
        omega
      | succ j =>
        rw [byteOn_succ_iff, Nat.add_sub_cancel_left, hi j, Nat.add_right_cancel_iff]
        exact and_iff_right hge

/-! ## 5. Cutting and counting -/

/-- **Cutting a text into lines loses nothing, and offsets are counted along the same lines.** The
    lines of a text and some breaks make it up again, with no pair taken for two breaks, and there
    are no other lines that do. The line of a byte offset exists, whether the offset is inside a
    character or past the end, and it never goes back. The offset belongs to one line; this is the
    line that is counted, except inside a pair, where it is the following one. -/
theorem lines_and_offsets_agree (t : Text) :
    ∃ bs, IsCut t (lines t) bs ∧
      (∀ ls' bs', IsCut t ls' bs' → ls' = lines t) ∧
      (∀ o, lineAtByte t o ≤ bs.length) ∧
      Monotone (lineAtByte t) ∧
      ∀ o, ∃ i, (∀ j, ByteOn (lines t) bs o j ↔ j = i) ∧
        (¬ SeversAt t o → lineAtByte t o = i) ∧ (SeversAt t o → lineAtByte t o = i + 1) := by
  obtain ⟨bs, hcut⟩ := exists_isCut t
  refine ⟨bs, hcut, fun ls' bs' h => h.eq_lines, fun o => ?_, monotone_lineAtByte t,
    hcut.exists_byteOn⟩
  have hlt := lineAtByte_lt t o
  have hlen := hcut.length_eq
  omega

/-- A run of break characters behind a character of two bytes: an offset inside this character, one
    past the end, and one inside the only pair. -/
theorem lines_and_offsets_agree_among_breaks :
    ∃ bs, IsCut ['é', '\r', '\r', '\n', '\n', '\r'] [['é'], [], [], [], []] bs ∧
      (∃ i, ByteOn [['é'], [], [], [], []] bs 1 i ∧
        ¬ SeversAt ['é', '\r', '\r', '\n', '\n', '\r'] 1 ∧
        lineAtByte ['é', '\r', '\r', '\n', '\n', '\r'] 1 = i) ∧
      (∃ i, ByteOn [['é'], [], [], [], []] bs 9 i ∧
        ¬ SeversAt ['é', '\r', '\r', '\n', '\n', '\r'] 9 ∧
        lineAtByte ['é', '\r', '\r', '\n', '\n', '\r'] 9 = i) ∧
      (∃ i, ByteOn [['é'], [], [], [], []] bs 4 i ∧
        SeversAt ['é', '\r', '\r', '\n', '\n', '\r'] 4 ∧
        lineAtByte ['é', '\r', '\r', '\n', '\n', '\r'] 4 = i + 1) ∧
      IsCut ['é', '\r', '\r', '\n', '\n', '\r'] [['é'], [], [], [], []]
        [['\r'], ['\r', '\n'], ['\n'], ['\r']] := by
  obtain ⟨bs, hcut, huniq, -, -, hoffset⟩ :=
    lines_and_offsets_agree ['é', '\r', '\r', '\n', '\n', '\r']
  have hwhole : IsCut ['é', '\r', '\r', '\n', '\n', '\r'] [['é'], [], [], [], []]
      [['\r'], ['\r', '\n'], ['\n'], ['\r']] := by decide
  rw [← huniq _ _ hwhole] at hcut hoffset
  obtain ⟨i, hi, hinside, -⟩ := hoffset 1
  obtain ⟨k, hk, hpast, -⟩ := hoffset 9
  obtain ⟨m, hm, -, hpair⟩ := hoffset 4
  exact ⟨bs, hcut, ⟨i, (hi i).mpr rfl, by decide, hinside (by decide)⟩,
    ⟨k, (hk k).mpr rfl, by decide, hpast (by decide)⟩,
    ⟨m, (hm m).mpr rfl, by decide, hpair (by decide)⟩, hwhole⟩

end Nsql.Text
