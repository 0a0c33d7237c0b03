/-
  File:      Nsql/Proofs/Scan/LineEndings.lean
  Subject:   Line endings do not matter to the built-in validator.

  The line checks see lines without their breaks. The search for queries goes through the whole
  text and meets the breaks too: a carriage return before a line feed is a stretch that it passes
  over, and no line gets another number or another width by it.

  * `queryFindings_pair` -- one carriage return more or less;
  * `queryFindings_withBreaks` -- any choice of breaks that end with a line feed;
  * **`endings_do_not_matter`** -- the findings are the same for all choices.
-/
import Nsql.Proofs.Document.Joins
import Nsql.Proofs.Scan.Insertion
import Nsql.Scan.Basic

namespace Nsql.Scan

open Text (IsLine withBreaks feeds WordAt)
open Document (place breaks)

/-- A word is on the same line with the carriage return and without it. -/
theorem hintAt_pair {p s : Text} (h : p.getLast? ≠ some '\r') {i : Nat}
    (hi : WordAt .anyCase findWord (p ++ '\n' :: s) i) :
    hintAt (p ++ '\r' :: '\n' :: s) (pushed p.length 1 i) = hintAt (p ++ '\n' :: s) i := by
  have hline : breaks ((p ++ '\r' :: '\n' :: s).take (pushed p.length 1 i)) =
      breaks ((p ++ '\n' :: s).take i) := by
    rcases Nat.lt_or_ge i p.length with hlt | hge
    · rw [pushed_of_lt hlt, List.take_append_of_le_length hlt.le,
        List.take_append_of_le_length hlt.le]
    · -- the word does not begin with the line feed
      have hne : i ≠ p.length := by
        intro heq
        have hlf := Text.getElem?_append_length p ('\n' :: s)
        rw [← heq] at hlf
        have hfeed : isWord '\n' = false := by decide
        exact hi.run.ne_of_not_isWord hfeed (Nat.le_refl i) hi.run.lt hlf
      obtain ⟨m, rfl⟩ : ∃ m, i = p.length + (m + 1) := ⟨i - p.length - 1, by omega⟩
      rw [pushed_of_le hge, Nat.add_assoc, List.take_length_add_append,
        List.take_length_add_append]
      exact Text.breaks_append_pair h (s.take m)
  simp only [hintAt, place, hline, Text.lines_append_pair h]

/-- **One carriage return before a line feed** changes no hint. -/
theorem queryFindings_pair {p : Text} (h : p.getLast? ≠ some '\r') (s : Text) :
    queryFindings (p ++ '\r' :: '\n' :: s) = queryFindings (p ++ '\n' :: s) := by
  have hword : ∀ c ∈ ['\r'], isWord c = false :=
    List.forall_mem_singleton.mpr (by decide)
  have hneutral : Neutral p ['\r'] ('\n' :: s) :=
    neutral_of_not_isWord (List.cons_ne_nil _ _) hword
      (.inr (show isEdge (some '\n') = true by decide)) (by decide) fun hfeed =>
        absurd hfeed (by decide)
  have hmap := queryFindings_insert hneutral hword (g := id) fun i hi => hintAt_pair h hi
  rwa [List.map_id] at hmap

/-- **Breaks that end with a line feed** make no difference to the hints, whatever stands before
    them. -/
theorem queryFindings_withBreaks {ls bs : List Text} (hlen : bs.length + 1 = ls.length)
    (hls : ∀ l ∈ ls, IsLine l) (hbs : ∀ b ∈ bs, b ∈ feeds) :
    ∀ p : Text, p.getLast? ≠ some '\r' →
      queryFindings (p ++ withBreaks ls bs) = queryFindings (p ++ ['\n'].intercalate ls) := by
  induction bs generalizing ls with
  | nil =>
    intro p _
    obtain ⟨l, rfl⟩ := List.length_eq_one_iff.mp hlen.symm
    rw [Text.withBreaks_singleton, List.intercalate_singleton]
  | cons b bs ih =>
    intro p hp
    match ls with
    | [] => cases hlen
    | [_] => cases hlen
    | l :: l' :: ls =>
      have hl := hls l List.mem_cons_self
      have hend : (p ++ l).getLast? ≠ some '\r' := by
        rw [List.getLast?_append]
        cases hlast : l.getLast? with
        | none => rwa [Option.none_or]
        | some c => rw [Option.some_or, ← hlast]; exact hl.getLast?_ne
      -- the break becomes a line feed, and then it belongs to what stands before the rest
      have hbreak : queryFindings (p ++ l ++ (b ++ withBreaks (l' :: ls) bs)) =
          queryFindings (p ++ l ++ '\n' :: withBreaks (l' :: ls) bs) := by
        have hb := hbs b List.mem_cons_self
        simp only [feeds, List.mem_cons, List.not_mem_nil, or_false] at hb
        rcases hb with rfl | rfl
        · rfl
        · exact queryFindings_pair hend _
      have hrest := ih (Nat.succ.inj hlen) (fun k hk => hls k (List.mem_cons_of_mem _ hk))
        (fun k hk => hbs k (List.mem_cons_of_mem _ hk)) (p ++ l ++ ['\n']) (by simp)
      rw [List.append_assoc _ ['\n'], List.append_assoc _ ['\n']] at hrest
      rw [Text.withBreaks_cons, List.intercalate_cons_cons, ← List.append_assoc p l, hbreak,
        List.append_assoc l, ← List.append_assoc p l]
      exact hrest

/-- **Line endings do not matter**: whether lines are put together with line feeds, with pairs of a
    carriage return and a line feed, or with the one here and the other there, the findings are the
    same; and the line checks give the same findings if carriage returns alone end the lines. -/
theorem endings_do_not_matter (ls : List Text) (hne : ls ≠ []) (hls : ∀ l ∈ ls, IsLine l) :
    (∀ bs : List Text, bs.length + 1 = ls.length → (∀ b ∈ bs, b = ['\n'] ∨ b = ['\r', '\n']) →
      scan (withBreaks ls bs) = scan (['\n'].intercalate ls)) ∧
    lineFindings (Text.lines (['\r'].intercalate ls)) =
      lineFindings (Text.lines (['\n'].intercalate ls)) := by
  have hfeed := Text.lines_intercalate (b := ['\n']) (by decide) hne hls
  refine ⟨fun bs hlen hbs => ?_, ?_⟩
  · have hfeeds : ∀ b ∈ bs, b ∈ feeds := fun b hb => by
      simpa only [feeds, List.mem_cons, List.not_mem_nil, or_false] using hbs b hb
    have hhints := queryFindings_withBreaks hlen hls hfeeds [] (by decide)
    rw [List.nil_append, List.nil_append] at hhints
    rw [scan, scan, Text.lines_withBreaks hlen hls hfeeds, hfeed, hhints]
  · rw [hfeed, Text.lines_intercalate (by decide) hne hls]

/-- An open string, a query over two lines and an empty last line, with one break of each kind. -/
theorem endings_do_not_matter_in_mixture :
    scan "FIND \"x FROM t\r\nGET y\n".toList = scan "FIND \"x FROM t\nGET y\n".toList ∧
    lineFindings (Text.lines "FIND \"x FROM t\rGET y\r".toList) =
      lineFindings (Text.lines "FIND \"x FROM t\nGET y\n".toList) := by
  have h := endings_do_not_matter ["FIND \"x FROM t".toList, "GET y".toList, []]
    (List.cons_ne_nil _ _) (by decide)
  exact ⟨h.1 [['\r', '\n'], ['\n']] rfl (by decide), h.2⟩

end Nsql.Scan
