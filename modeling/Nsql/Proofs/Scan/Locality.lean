/-
  File:      Nsql/Proofs/Scan/Locality.lean
  Subject:   A terminated line keeps the findings on its two sides apart.

  A semicolon at the end of a line ends the statement that is being collected and every query that
  has begun. What stands before it and what stands behind its line are therefore scanned as if the
  other part were not there; only the lines of the second part are counted on from those of the
  first (`findings_are_local`).
-/
import Nsql.Proofs.Document.Lines
import Nsql.Proofs.Scan.LinePass
import Nsql.Proofs.Scan.Queries

namespace Nsql.Scan

/-! ## 1. Hints on both sides of a terminated line -/

/-- The hint for a query does not depend on the lines behind it. -/
theorem hint_append_left {p : Text} (hp : p.getLast? ≠ some '\r') (s : Text) {q : Query}
    (hq : q.offset ≤ Text.size p) : q.hint (p ++ '\n' :: s) = q.hint p := by
  rw [Query.hint, Query.hint, Text.lineAtByte_append_of_le p _ hq,
    Text.lines_append_lineFeed p s hp, Text.lineWidth_append_left (Text.lineAtByte_lt p _)]

/-- The hint for a query is further down by the lines before it. -/
theorem hint_append_right {p : Text} (hp : p.getLast? ≠ some '\r') (s : Text) (q : Query) :
    (q.shift (Text.size p + 1)).hint (p ++ '\n' :: s) = (q.hint s).shift (Text.lines p).length := by
  rw [Query.hint, Query.shift, Text.lineAtByte_append_lineFeed p s _ hp,
    Text.lines_append_lineFeed p s hp, Text.lineWidth_append_right]
  exact (Diagnostic.shift_ofLine _ _ _ _ _ _).symm

/-- **The hints on both sides of a terminated line.** -/
theorem queryFindings_append (s t : Text) :
    queryFindings (s ++ [';'] ++ '\n' :: t) =
      queryFindings (s ++ [';']) ++
        (queryFindings t).map (Diagnostic.shift (Text.lines (s ++ [';'])).length) := by
  have hlast : (s ++ [';']).getLast? ≠ some '\r' := by simp
  have hsize : Text.size s + 2 = Text.size (s ++ [';']) + 1 := by
    rw [Text.size_append]
    rfl
  have hleft : ∀ q ∈ (queries (s ++ [';'])).filter (fun q => !q.isFiltered),
      q.hint (s ++ [';'] ++ '\n' :: t) = q.hint (s ++ [';']) := by
    intro q hq
    have hle := offset_le_of_mem_queriesFrom (List.mem_filter.mp hq).1
    exact hint_append_left hlast t (by omega)
  have hright : ∀ q : Query, (q.shift (Text.size s + 2)).hint (s ++ [';'] ++ '\n' :: t) =
      (q.hint t).shift (Text.lines (s ++ [';'])).length := by
    intro q
    rw [hsize]
    exact hint_append_right hlast t q
  have hqueries : queries (s ++ [';'] ++ '\n' :: t) =
      queries (s ++ [';']) ++ (queries t).map (Query.shift (Text.size s + 2)) := by
    rw [List.append_assoc]
    exact queries_append s t
  rw [queryFindings_eq, queryFindings_eq, queryFindings_eq, hqueries, List.filter_append,
    List.map_append, List.map_congr_left hleft, List.filter_map, List.map_map, List.map_map]
  congr 1
  exact List.map_congr_left fun q _ => hright q

/-! ## 2. The findings of both kinds -/

/-- What is not trimmed away stays at the end. -/
theorem trimWhile_append {p : Char → Bool} {x : Char} (hx : p x = false) (l : Text) :
    ∃ l', Text.trimWhile p (l ++ [x]) = l' ++ [x] := by
  have hfront : ∃ l', (l ++ [x]).dropWhile p = l' ++ [x] := by
    rw [List.dropWhile_append]
    split
    · exact ⟨[], by simp [List.dropWhile, hx]⟩
    · exact ⟨_, rfl⟩
  obtain ⟨l', hl'⟩ := hfront
  refine ⟨l', ?_⟩
  rw [Text.trimWhile, hl', Text.dropEndWhile]
  simp [hx]

/-- A line that ends in a semicolon counts, unless it is a comment, and it ends a statement. -/
theorem terminated_of_semicolon {l : Text}
    (h : isComment (Text.trimEdges (l ++ [';'])) = false) :
    isSignificant (l ++ [';']) = true ∧
      endsStatement (Text.trimEdges (l ++ [';'])) = true := by
  obtain ⟨l', hl'⟩ : ∃ l', Text.trimEdges (l ++ [';']) = l' ++ [';'] :=
    trimWhile_append (by decide) l
  rw [hl'] at h
  simp [isSignificant, endsStatement, hl', h]

/-- **The scanner is local to terminated statements.** Behind a line that ends in a semicolon and
    is no comment, the text is scanned as if it stood alone, and so is the text up to there; the
    findings of the second part are only counted on by the lines of the first. -/
theorem findings_are_local (s t : Text)
    (h : ∀ line ∈ (Text.lines (s ++ [';'])).getLast?, isComment (Text.trimEdges line) = false) :
    lineFindings (Text.lines (s ++ [';'] ++ '\n' :: t)) =
      lineFindings (Text.lines (s ++ [';'])) ++
        (lineFindings (Text.lines t)).map
          (Diagnostic.shift (Text.lines (s ++ [';'])).length) ∧
    queryFindings (s ++ [';'] ++ '\n' :: t) =
      queryFindings (s ++ [';']) ++
        (queryFindings t).map (Diagnostic.shift (Text.lines (s ++ [';'])).length) := by
  refine ⟨?_, queryFindings_append s t⟩
  have hlast : (s ++ [';']).getLast? ≠ some '\r' := by simp
  obtain ⟨full, -, hlines, -⟩ := Text.lines_append (s ++ [';']) [] fun hs => by cases hs.2
  have hopen : Document.openLine (s ++ [';']) = Document.openLine s ++ [';'] :=
    List.rtakeWhile_concat_pos _ _ _ (by decide)
  rw [hopen] at hlines
  have hcomment := h (Document.openLine s ++ [';']) (by rw [hlines]; simp)
  obtain ⟨hsig, hend⟩ := terminated_of_semicolon hcomment
  rw [Text.lines_append_lineFeed _ t hlast, hlines]
  exact lineFindings_append hsig hend (Text.lines t)

/-- An open string and a query before the semicolon, on lines that end in both characters of a
    break, and an unended statement and a query behind it, on lines that end in one. -/
theorem findings_are_local_across_breaks :
    (∀ line ∈ (Text.lines (['"', '\r', '\n', 'F', 'I', 'N', 'D', ' ', 'F', 'R', 'O', 'M'] ++
        [';'])).getLast?, isComment (Text.trimEdges line) = false) ∧
    lineFindings (Text.lines (['"', '\r', '\n', 'F', 'I', 'N', 'D', ' ', 'F', 'R', 'O', 'M'] ++
        [';'] ++ '\n' ::
        ['S', 'H', 'O', 'W', '\r', 'f', 'i', 'n', 'd', ' ', 'f', 'r', 'o', 'm'])) =
      [unclosedString 0 1, missingTerminator 3 9] ∧
    queryFindings (['"', '\r', '\n', 'F', 'I', 'N', 'D', ' ', 'F', 'R', 'O', 'M'] ++ [';'] ++
        '\n' :: ['S', 'H', 'O', 'W', '\r', 'f', 'i', 'n', 'd', ' ', 'f', 'r', 'o', 'm']) =
      [missingFilter 1 10, missingFilter 3 9] := by
  have h : ∀ line ∈ (Text.lines (['"', '\r', '\n', 'F', 'I', 'N', 'D', ' ', 'F', 'R', 'O', 'M'] ++
      [';'])).getLast?, isComment (Text.trimEdges line) = false := by decide
  obtain ⟨hlines, hqueries⟩ := findings_are_local _
    ['S', 'H', 'O', 'W', '\r', 'f', 'i', 'n', 'd', ' ', 'f', 'r', 'o', 'm'] h
  refine ⟨h, ?_, ?_⟩
  · rw [hlines]
    decide +kernel
  · rw [hqueries]
    decide +kernel

end Nsql.Scan
