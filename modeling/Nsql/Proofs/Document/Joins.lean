/-
  File:      Nsql/Proofs/Document/Joins.lean
  Subject:   Texts that are put together from lines.

  Lines are put together with a break behind each of them but the last: the same one everywhere
  (`List.intercalate`), or each time the one that is chosen for it (`withBreaks`). The text has
  these lines again, unless a carriage return has come to stand before a line feed that is not its
  own.

  * `IsLine.lines_append_break` -- a line and its break, in front of a text;
  * `lines_intercalate`, `lines_withBreaks` -- the lines of a text that is put together;
  * `intercalate_append`, `intercalate_concat` -- lines before other lines;
  * `lines_append_pair` -- a carriage return before a line feed makes no line of its own.
-/
import Nsql.Proofs.Document.Views

namespace Nsql.Text

open Document (isBreak breaks openLine glue Severs)

/-! ## 1. A line and its break -/

/-- A line: a text that holds no break. -/
def IsLine (l : Text) : Prop := ∀ c ∈ l, isBreak c = false

instance (l : Text) : Decidable (IsLine l) :=
  List.decidableBAll (fun c => isBreak c = false) l

namespace IsLine

variable {l : Text}

theorem openLine_eq (h : IsLine l) : openLine l = l :=
  List.rtakeWhile_eq_self_iff.mpr fun c hc => by rw [h c hc]; rfl

theorem getLast?_ne (h : IsLine l) : l.getLast? ≠ some '\r' := by
  intro hlast
  have hno := h '\r' (List.mem_of_getLast? hlast)
  cases hno

theorem head?_ne (h : IsLine l) : l.head? ≠ some '\n' := by
  intro hhead
  have hno := h '\n' (List.mem_of_head? hhead)
  cases hno

/-- A line goes on with what stands behind it, up to the first break there. -/
theorem lines_append (h : IsLine l) (s : Text) : lines (l ++ s) = glue l (lines s) := by
  obtain ⟨full, hlen, -, happ⟩ := Text.lines_append l s fun hs => h.getLast?_ne hs.1
  rw [Document.breaks_eq_zero h.openLine_eq, List.length_eq_zero_iff] at hlen
  rw [happ, hlen, h.openLine_eq, List.nil_append]

end IsLine

/-- A break in front of a text ends an empty line. -/
theorem lines_break_append {b rest : Text} (hb : b ∈ lineBreaks) (h : ¬ Severs b rest) :
    lines (b ++ rest) = [] :: lines rest := by
  rcases mem_lineBreaks_iff.mp hb with rfl | rfl | rfl
  · rw [List.singleton_append, lines, if_pos (.inl rfl)]
    intro t hcr
    cases hcr
  · rfl
  · rw [List.singleton_append, lines, if_pos (.inr rfl)]
    intro t _ hrest
    exact h ⟨rfl, by rw [hrest]; rfl⟩

/-- **A line and its break**, in front of a text. -/
theorem IsLine.lines_append_break {l b rest : Text} (hl : IsLine l) (hb : b ∈ lineBreaks)
    (h : ¬ Severs b rest) : lines (l ++ (b ++ rest)) = l :: lines rest := by
  rw [hl.lines_append, lines_break_append hb h, glue, List.append_nil]

/-- A line by itself is the only one. -/
theorem IsLine.lines_eq {l : Text} (hl : IsLine l) : lines l = [l] := by
  have hself := hl.lines_append []
  rwa [List.append_nil, show lines [] = [[]] from rfl, glue, List.append_nil] at hself

/-! ## 2. Many lines -/

/-- The same break behind each line but the last is never torn apart. -/
theorem not_severs_intercalate {b l : Text} {ls : List Text} (hb : b ∈ lineBreaks)
    (hl : IsLine l) : ¬ Severs b (b.intercalate (l :: ls)) := by
  intro ⟨hlast, hhead⟩
  have hcr : b = ['\r'] := by
    rcases mem_lineBreaks_iff.mp hb with rfl | rfl | rfl
    · cases hlast
    · cases hlast
    · rfl
  subst hcr
  cases l with
  | cons c l =>
    refine hl.head?_ne ?_
    cases ls with
    | nil => rwa [List.intercalate_singleton] at hhead
    | cons l' ls => rwa [List.intercalate_cons_cons, List.append_assoc, List.cons_append] at hhead
  | nil =>
    cases ls with
    | nil =>
      rw [List.intercalate_singleton] at hhead
      cases hhead
    | cons l' ls =>
      rw [List.intercalate_cons_cons] at hhead
      cases hhead

/-- **The lines of a text that is put together from lines**, with the same break everywhere. -/
theorem lines_intercalate {b : Text} (hb : b ∈ lineBreaks) {ls : List Text} (hne : ls ≠ [])
    (hls : ∀ l ∈ ls, IsLine l) : lines (b.intercalate ls) = ls := by
  induction ls with
  | nil => exact absurd rfl hne
  | cons l ls ih =>
    have hl := hls l List.mem_cons_self
    cases ls with
    | nil => rw [List.intercalate_singleton, hl.lines_eq]
    | cons l' ls =>
      have hrest : ∀ k ∈ l' :: ls, IsLine k := fun k hk => hls k (List.mem_cons_of_mem _ hk)
      rw [List.intercalate_cons_cons, List.append_assoc,
        hl.lines_append_break hb (not_severs_intercalate hb (hrest l' List.mem_cons_self)),
        ih (List.cons_ne_nil _ _) hrest]

/-- Lines and more lines: each of the first ones has its break behind it. -/
theorem intercalate_append (b : Text) (ls : List Text) {rest : List Text} (hne : rest ≠ []) :
    b.intercalate (ls ++ rest) = ls.flatMap (· ++ b) ++ b.intercalate rest := by
  induction ls with
  | nil => rfl
  | cons l ls ih =>
    have hrest := List.append_ne_nil_of_right_ne_nil ls hne
    rw [List.cons_append, List.intercalate_cons_of_ne_nil hrest, ih, List.flatMap_cons,
      List.append_assoc (l ++ b)]

/-- Lines and one more line. -/
theorem intercalate_concat (b : Text) {ls : List Text} (hne : ls ≠ []) (l : Text) :
    b.intercalate (ls ++ [l]) = b.intercalate ls ++ (b ++ l) := by
  obtain ⟨init, last, rfl⟩ := (List.eq_nil_or_concat' ls).resolve_left hne
  rw [List.append_assoc, List.singleton_append, intercalate_append b init (List.cons_ne_nil _ _),
    intercalate_append b init (List.cons_ne_nil _ _), List.intercalate_cons_cons,
    List.intercalate_singleton, List.intercalate_singleton, List.append_assoc, List.append_assoc]

/-- Lines that all have a break behind them have as many breaks. -/
theorem breaks_flatMap {ls : List Text} (hls : ∀ l ∈ ls, IsLine l) :
    breaks (ls.flatMap (· ++ ['\n'])) = ls.length := by
  have hlines := lines_intercalate (b := ['\n']) (by decide)
    (List.append_ne_nil_of_right_ne_nil ls (List.cons_ne_nil [] []))
    (List.forall_mem_append.mpr ⟨hls, by decide⟩)
  have hlen := congrArg List.length hlines
  rw [intercalate_append _ _ (List.cons_ne_nil _ _), List.intercalate_singleton, List.append_nil,
    length_lines, List.length_append] at hlen
  exact Nat.add_right_cancel hlen

/-- Lines with breaks behind them; the last line has none. -/
def withBreaks (ls bs : List Text) : Text := (List.zipWith (· ++ ·) ls (bs ++ [[]])).flatten

theorem withBreaks_singleton (l : Text) : withBreaks [l] [] = l := by
  simp [withBreaks]

theorem withBreaks_cons (l b : Text) (ls bs : List Text) :
    withBreaks (l :: ls) (b :: bs) = l ++ (b ++ withBreaks ls bs) := by
  simp [withBreaks]

/-- The breaks that end with a line feed. -/
def feeds : List Text := [['\n'], ['\r', '\n']]

theorem mem_lineBreaks_of_mem_feeds {b : Text} (h : b ∈ feeds) : b ∈ lineBreaks :=
  List.mem_of_mem_take (i := 2) h

theorem getLast?_of_mem_feeds {b : Text} (h : b ∈ feeds) : b.getLast? ≠ some '\r' := by
  simp only [feeds, List.mem_cons, List.not_mem_nil, or_false] at h
  rcases h with rfl | rfl <;> decide

/-- **The lines of a text whose breaks are chosen one by one**, if all end with a line feed. -/
theorem lines_withBreaks {ls bs : List Text} (hlen : bs.length + 1 = ls.length)
    (hls : ∀ l ∈ ls, IsLine l) (hbs : ∀ b ∈ bs, b ∈ feeds) : lines (withBreaks ls bs) = ls := by
  induction bs generalizing ls with
  | nil =>
    obtain ⟨l, rfl⟩ := List.length_eq_one_iff.mp hlen.symm
    rw [withBreaks_singleton, (hls l List.mem_cons_self).lines_eq]
  | cons b bs ih =>
    cases ls with
    | nil => cases hlen
    | cons l ls =>
      have hb := hbs b List.mem_cons_self
      rw [withBreaks_cons, (hls l List.mem_cons_self).lines_append_break
        (mem_lineBreaks_of_mem_feeds hb) fun hs => getLast?_of_mem_feeds hb hs.1]
      rw [ih (Nat.succ.inj hlen) (fun k hk => hls k (List.mem_cons_of_mem _ hk))
        fun k hk => hbs k (List.mem_cons_of_mem _ hk)]

/-! ## 3. A carriage return before a line feed -/

/-- **A carriage return before a line feed** makes no line of its own. -/
theorem lines_append_pair {p : Text} (h : p.getLast? ≠ some '\r') (s : Text) :
    lines (p ++ '\r' :: '\n' :: s) = lines (p ++ '\n' :: s) := by
  obtain ⟨full, -, hlines, happ⟩ := Text.lines_append p ('\r' :: '\n' :: s) fun hs => h hs.1
  rw [happ, lines_append_lineFeed p s h, hlines, lines, List.append_assoc]
  simp only [glue, List.append_nil, List.singleton_append]

theorem breaks_append_pair {p : Text} (h : p.getLast? ≠ some '\r') (s : Text) :
    breaks (p ++ '\r' :: '\n' :: s) = breaks (p ++ '\n' :: s) := by
  have hlen := congrArg List.length (lines_append_pair h s)
  rwa [length_lines, length_lines, Nat.add_right_cancel_iff] at hlen

end Nsql.Text
