/-
  File:      Nsql/Proofs/Scan/Filtering.lean
  Subject:   What a filter at the end of a query changes.

  A query ends before a semicolon or at the end of the text. A clause that filters is put in there:
  it begins with a blank, and it holds no word FIND or FROM, no semicolon and no break. So no word
  is lengthened or cut, no query is opened and none ends earlier, and every line keeps its index.
  The queries are the same as before, except that one of them now ends with the clause, and those
  behind it stand further down.

  * `neutral_clause`, `next_clause` -- the search goes on as before up to the clause;
  * `queriesBehind_clause` -- what it finds from any place before the clause on;
  * `hintLines_clause`, `hintLines_clauses` -- the lines of the hints with one clause and with more;
  * **`clause_takes_one_hint`** -- so a clause at the end of a query takes the hint of this query.
-/
import Nsql.Proofs.Scan.Coverage
import Nsql.Proofs.Scan.Insertion

namespace Nsql.Scan

open Text (WordAt before?)
open Document (Severs)

/-! ## 1. The search up to a clause -/

/-- A clause that filters. -/
def filterClause : Text := [' ', 'W', 'H', 'E', 'R', 'E', ' ', 'x']

/-- **The search passes over a clause** that is put in where no word goes on: it begins with a blank
    and holds no semicolon, no line feed and no letter F. -/
theorem neutral_clause {p v : Text} (hv : isEdge v.head? = true) : Neutral p filterClause v where
  outer := .inr hv
  left := .inr (show isEdge (some ' ') = true by decide)
  right := .inr hv
  letters := by
    have hall : (filterClause.all fun c => !Letters.anyCase.same 'F' c) = true := by decide
    simpa using hall
  semicolon := by decide
  lineFeed := fun h => absurd h (by decide)

/-- **The search goes on as before up to a clause**: a query that ends before it ends where it did,
    and one that ends right where it is put in has it at its end. -/
theorem next_clause {p v : Text} (hv : isEdge v.head? = true) {q s e : Nat}
    (h : Next (p ++ v) q s e) (he : e ≤ p.length) :
    Next (p ++ (filterClause ++ v)) q s (pushed p.length filterClause.length e) := by
  have hlt := h.spans.lt
  have hqs : q ≤ s := h.least.1.1
  have hahead : ∀ k, q ≤ k ↔ q ≤ pushed p.length filterClause.length k := by
    intro k
    unfold pushed
    split <;> omega
  have hnext := next_insert (neutral_clause hv) hahead h
  rwa [pushed_of_lt (show s < p.length by omega)] at hnext

/-! ## 2. The queries of a text with a clause -/

/-- Places further down have more bytes before them. -/
theorem size_take_lt {t : Text} {i j : Nat} (hij : i < j) (hj : j ≤ t.length) :
    Text.size (t.take i) < Text.size (t.take j) := by
  obtain ⟨c, u, hu⟩ := Text.exists_take_eq hij hj
  have hpos := bytesOf_pos c
  rw [hu, Text.size_append, Text.size_cons]
  omega

theorem size_take_le {t : Text} {i j : Nat} (hij : i ≤ j) (hj : j ≤ t.length) :
    Text.size (t.take i) ≤ Text.size (t.take j) := by
  rcases Nat.eq_or_lt_of_le hij with rfl | hlt
  · exact Nat.le_refl _
  · exact Nat.le_of_lt (size_take_lt hlt hj)

/-- A query ends at the byte where the search goes on. -/
theorem size_take_extract {t : Text} {s e : Nat} (h : s ≤ e) :
    Text.size (t.take s) + Text.size (t.extract s e) = Text.size (t.take e) := by
  rw [← Text.size_append, List.extract_eq_take_drop, ← List.take_add, Nat.add_sub_cancel' h]

/-- **Queries follow one another**: each begins at or behind the byte where the one before it
    ends. -/
theorem pairwise_queriesBehind (t : Text) (p : Nat) :
    (queriesBehind t p).Pairwise fun q r => q.offset + Text.size q.body ≤ r.offset := by
  induction p using search_induction (t := t) with
  | done p hnil _ =>
    rw [hnil]
    exact .nil
  | query p s e hnext hqueries ih =>
    rw [hqueries]
    refine List.pairwise_cons.mpr ⟨fun r hr => ?_, ih⟩
    obtain ⟨s', e', hfound, rfl⟩ := mem_queriesBehind_iff.mp hr
    have hlt := hfound.spans.lt
    have hle := hfound.spans.le_length
    show Text.size (t.take s) + Text.size (t.extract s e) ≤ Text.size (t.take s')
    rw [size_take_extract (Nat.le_of_lt hnext.spans.lt)]
    exact size_take_le hfound.le (by omega)

theorem extract_append_left {p r : Text} {s e : Nat} (hse : s ≤ e) (he : e ≤ p.length) :
    (p ++ r).extract s e = p.extract s e := by
  rw [List.extract_eq_take_drop, List.extract_eq_take_drop,
    List.drop_append_of_le_length (by omega), List.take_append_of_le_length]
  rw [List.length_drop]
  omega

theorem extract_middle (u m v : Text) : (u ++ m ++ v).extract u.length (u ++ m).length = m := by
  rw [List.extract_eq_take_drop, List.append_assoc, List.drop_left, List.length_append,
    Nat.add_sub_cancel_left, List.take_left]

/-- A query is where its bytes are: between what stands before it and what stands behind it. -/
theorem place_of_query {u body v : Text} {s e : Nat} (h : Spans (u ++ body ++ v) s e)
    (hq : (⟨Text.size u, body⟩ : Query) =
      ⟨Text.size ((u ++ body ++ v).take s), (u ++ body ++ v).extract s e⟩) :
    s = u.length ∧ e = (u ++ body).length := by
  obtain ⟨t, ht⟩ : ∃ t, t = u ++ body ++ v := ⟨_, rfl⟩
  rw [← ht] at h hq
  obtain ⟨hoffset, hbody⟩ := Query.mk.inj hq
  have hlt := h.lt
  have hle := h.le_length
  have hlen := congrArg List.length hbody
  rw [List.extract_eq_take_drop, List.length_take, List.length_drop] at hlen
  have htake : t.take u.length = u := by
    rw [ht, List.append_assoc, List.take_left]
  have hu : u.length ≤ t.length := by
    rw [ht, List.append_assoc, List.length_append]
    omega
  have hs : s = u.length := by
    rcases Nat.lt_trichotomy s u.length with hlt | heq | hgt
    · have hsize : Text.size (t.take s) < Text.size (t.take u.length) := size_take_lt hlt hu
      rw [htake] at hsize
      omega
    · exact heq
    · have hsize : Text.size (t.take u.length) < Text.size (t.take s) :=
        size_take_lt hgt (by omega)
      rw [htake] at hsize
      omega
  rw [List.length_append]
  exact ⟨hs, by omega⟩

/-- Behind a query stands a semicolon, or nothing. -/
theorem semicolon_of_spans {p v : Text} {s : Nat} (h : Spans (p ++ v) s p.length) :
    ∀ c ∈ v.head?, c = ';' := by
  intro c hc
  obtain ⟨k, -, hstop⟩ := h.stops
  obtain ⟨v', rfl⟩ := List.head?_eq_some_iff.mp hc
  have hsemi := hstop.semicolon (by rw [List.length_append, List.length_cons]; omega)
  rw [Text.getElem?_append_length] at hsemi
  exact Option.some.inj hsemi

theorem edge_of_semicolon {v : Text} (h : ∀ c ∈ v.head?, c = ';') : isEdge v.head? = true := by
  cases v with
  | nil => rfl
  | cons c v =>
    rw [List.head?_cons, h c rfl]
    decide

/-- **What stands behind a clause is searched as before**, only further down. -/
theorem queriesBehind_clause_right {p v : Text} (hv : ∀ c ∈ v.head?, c = ';') :
    queriesBehind (p ++ (filterClause ++ v)) (p.length + filterClause.length) =
      (queriesBehind (p ++ v) p.length).map (Query.shift (Text.size filterClause)) := by
  have htake : (p ++ (filterClause ++ v)).take (p.length + filterClause.length) =
      p ++ filterClause := by
    rw [List.take_length_add_append, List.take_left]
  have hdrop : (p ++ (filterClause ++ v)).drop (p.length + filterClause.length) = v := by
    rw [List.drop_length_add_append, List.drop_left]
  rw [queriesBehind, queriesBehind, htake, hdrop, List.take_left, List.drop_left,
    Text.size_append]
  cases v with
  | nil => rfl
  | cons c v =>
    obtain rfl : c = ';' := hv c rfl
    have hword : ∀ w ∈ findWord.head?, Letters.anyCase.same w ';' = false := by
      rintro w ⟨⟩
      decide
    -- no query begins with the semicolon, so it does not matter what stands before it
    rw [queriesFrom_cons_of_none (queryAt?_eq_none hword _ v),
      queriesFrom_cons_of_none (queryAt?_eq_none hword _ v), ← queriesFrom_shift,
      Nat.add_right_comm]

/-- **The queries of a text with a clause**: the query at the end of which the clause is put in has
    it at its end, those before it are as they were, and those behind it stand further down. -/
theorem queriesBehind_clause {u body v : Text} {q : Nat} {before behind : List Query}
    (h : queriesBehind (u ++ body ++ v) q = before ++ ⟨Text.size u, body⟩ :: behind) :
    queriesBehind (u ++ body ++ (filterClause ++ v)) q =
      before ++ ⟨Text.size u, body ++ filterClause⟩ ::
        behind.map (Query.shift (Text.size filterClause)) := by
  induction before generalizing q with
  | nil =>
    rcases queriesBehind_cases (u ++ body ++ v) q with ⟨hnil, -⟩ | ⟨s, e, hnext, hqueries⟩
    · rw [hnil] at h
      cases h
    · rw [hqueries] at h
      obtain ⟨hhead, hbehind⟩ := List.cons.inj h
      obtain ⟨rfl, rfl⟩ := place_of_query hnext.spans hhead.symm
      have hv := semicolon_of_spans hnext.spans
      have hnext' := next_clause (edge_of_semicolon hv) hnext (Nat.le_refl _)
      rw [pushed_of_le (Nat.le_refl _)] at hnext'
      have htake : (u ++ body ++ (filterClause ++ v)).take u.length = u := by
        rw [List.append_assoc, List.take_left]
      have hbody : (u ++ body ++ (filterClause ++ v)).extract u.length
          ((u ++ body).length + filterClause.length) = body ++ filterClause := by
        have hmiddle := extract_middle u (body ++ filterClause) v
        rw [← List.append_assoc u body filterClause, @List.length_append _ (u ++ body),
          List.append_assoc (u ++ body)] at hmiddle
        exact hmiddle
      rw [queriesBehind_of_next hnext', htake, hbody, queriesBehind_clause_right hv, hbehind]
      rfl
  | cons q0 before ih =>
    rcases queriesBehind_cases (u ++ body ++ v) q with ⟨hnil, -⟩ | ⟨s, e, hnext, hqueries⟩
    · rw [hnil] at h
      cases h
    · rw [hqueries, List.cons_append] at h
      obtain ⟨rfl, hrest⟩ := List.cons.inj h
      -- the query with the clause is among those that are found where this one ends
      have hmem : (⟨Text.size u, body⟩ : Query) ∈ queriesBehind (u ++ body ++ v) e := by
        rw [hrest]
        exact List.mem_append_right _ List.mem_cons_self
      obtain ⟨s', e', hfound, hq⟩ := mem_queriesBehind_iff.mp hmem
      obtain ⟨rfl, rfl⟩ := place_of_query hfound.spans hq
      have hlt := hnext.spans.lt
      have hlt' := hfound.spans.lt
      have hle := hfound.le
      have hedge := edge_of_semicolon (semicolon_of_spans hfound.spans)
      have hnext' := next_clause hedge hnext (by omega)
      rw [pushed_of_lt (by omega)] at hnext'
      have htake : ∀ r : Text, (u ++ body ++ r).take s = (u ++ body).take s :=
        fun r => List.take_append_of_le_length (by omega)
      have hextract : ∀ r : Text, (u ++ body ++ r).extract s e = (u ++ body).extract s e :=
        fun r => extract_append_left (by omega) (by omega)
      rw [queriesBehind_of_next hnext', ih hrest, htake, hextract, htake, hextract]
      rfl

theorem queries_clause {u body v : Text} {before behind : List Query}
    (h : queries (u ++ body ++ v) = before ++ ⟨Text.size u, body⟩ :: behind) :
    queries (u ++ (body ++ filterClause) ++ v) =
      before ++ ⟨Text.size u, body ++ filterClause⟩ ::
        behind.map (Query.shift (Text.size filterClause)) := by
  have hshape : u ++ (body ++ filterClause) ++ v = u ++ body ++ (filterClause ++ v) := by
    simp only [List.append_assoc]
  rw [hshape]
  exact queriesBehind_clause (q := 0) h

/-! ## 3. The lines of the hints -/

/-- The lines of the hints for those of some queries that have no filter, in 32 bits. -/
def hintLinesOf (t : Text) (qs : List Query) : List Nat :=
  (qs.filter fun q => !q.isFiltered).map fun q => low32 (Text.lineAtByte t q.offset)

/-- The lines of the hints of a text. -/
def hintLines (t : Text) : List Nat := (queryFindings t).map fun d => d.range.start.line

theorem hintLines_eq (t : Text) : hintLines t = hintLinesOf t (queries t) := by
  rw [hintLines, queryFindings_eq, List.map_map]
  rfl

theorem hintLinesOf_append (t : Text) (qs rs : List Query) :
    hintLinesOf t (qs ++ rs) = hintLinesOf t qs ++ hintLinesOf t rs := by
  rw [hintLinesOf, List.filter_append, List.map_append]
  rfl

theorem hintLinesOf_cons_of_filtered {t : Text} {q : Query} (h : q.isFiltered = true)
    (qs : List Query) : hintLinesOf t (q :: qs) = hintLinesOf t qs := by
  simp [hintLinesOf, h]

theorem hintLinesOf_cons_of_not_filtered {t : Text} {q : Query} (h : q.isFiltered = false)
    (qs : List Query) :
    hintLinesOf t (q :: qs) = low32 (Text.lineAtByte t q.offset) :: hintLinesOf t qs := by
  simp [hintLinesOf, h]

/-- A query that ends in a clause has a filter. -/
theorem isFiltered_clause (offset : Nat) (body : Text) :
    (⟨offset, body ++ filterClause⟩ : Query).isFiltered = true := by
  have hlettered : Text.Lettered ['W', 'H', 'E', 'R', 'E'] := by decide
  have hdrop : (body ++ filterClause).drop (body.length + 1) =
      ['W', 'H', 'E', 'R', 'E', ' ', 'x'] := by
    rw [List.drop_length_add_append]
    rfl
  have hbefore : before? (body ++ filterClause) (body.length + 1) = some ' ' := by
    rw [Text.before?_succ, Text.getElem?_append_length]
    rfl
  have hword : WordAt .anyCase ['W', 'H', 'E', 'R', 'E'] (body ++ filterClause)
      (body.length + 1) := by
    have hfront : Text.behindWord? .anyCase ['W', 'H', 'E', 'R', 'E']
        (before? (body ++ filterClause) (body.length + 1))
        ((body ++ filterClause).drop (body.length + 1)) = some [' ', 'x'] := by
      rw [hdrop, hbefore]
      decide
    exact ((Text.behindWord?_drop_iff hlettered).mp hfront).1
  have hholds := (@Text.holdsWord_drop_iff .anyCase filterWords (body ++ filterClause) 0
    lettered_filterWords).mpr ⟨_, Nat.zero_le _, _, List.mem_cons_self, hword⟩
  exact hholds

section Lines

variable {p v : Text}

/-- Before a clause every line keeps its index. -/
theorem lineAtByte_clause_left {n : Nat} (h : n ≤ Text.size p) :
    Text.lineAtByte (p ++ (filterClause ++ v)) n = Text.lineAtByte (p ++ v) n := by
  rw [Text.lineAtByte_append_of_le p _ h, Text.lineAtByte_append_of_le p _ h]

/-- Behind a clause every line keeps its index too. -/
theorem lineAtByte_clause_right (hv : ∀ c ∈ v.head?, c = ';') (n : Nat) :
    Text.lineAtByte (p ++ (filterClause ++ v)) (Text.size p + n + Text.size filterClause) =
      Text.lineAtByte (p ++ v) (Text.size p + n) := by
  have hsev : ∀ r : Text, ¬ Severs r v := by
    intro r ⟨_, hhead⟩
    have hsemi := hv _ hhead
    cases hsemi
  have hclause : ¬ Severs p filterClause := fun h => by cases h.2
  have hsum : Text.size p + n + Text.size filterClause = Text.size (p ++ filterClause) + n := by
    rw [Text.size_append]
    omega
  rw [hsum, ← List.append_assoc, Text.lineAtByte_append_add _ _ _ (hsev _),
    Text.lineAtByte_append_add _ _ _ (hsev _), Document.breaks_append hclause]
  rfl

end Lines

/-- **The lines of the other hints**: before the clause and behind it they are what they were. -/
theorem hintLinesOf_clause {u body v : Text} {before behind : List Query}
    (h : queries (u ++ body ++ v) = before ++ ⟨Text.size u, body⟩ :: behind) :
    hintLinesOf (u ++ (body ++ filterClause) ++ v) before = hintLinesOf (u ++ body ++ v) before ∧
    hintLinesOf (u ++ (body ++ filterClause) ++ v)
        (behind.map (Query.shift (Text.size filterClause))) =
      hintLinesOf (u ++ body ++ v) behind := by
  have hshape : u ++ (body ++ filterClause) ++ v = u ++ body ++ (filterClause ++ v) := by
    simp only [List.append_assoc]
  have hfollow := pairwise_queriesBehind (u ++ body ++ v) 0
  rw [show queriesBehind (u ++ body ++ v) 0 = queries (u ++ body ++ v) from rfl, h,
    List.pairwise_append, List.pairwise_cons] at hfollow
  obtain ⟨-, ⟨hright, -⟩, hleft⟩ := hfollow
  have hv : ∀ c ∈ v.head?, c = ';' := by
    have hmem : (⟨Text.size u, body⟩ : Query) ∈ queriesBehind (u ++ body ++ v) 0 := by
      show _ ∈ queries (u ++ body ++ v)
      rw [h]
      exact List.mem_append_right _ List.mem_cons_self
    obtain ⟨s, e, hfound, hq⟩ := mem_queriesBehind_iff.mp hmem
    obtain ⟨-, rfl⟩ := place_of_query hfound.spans hq
    exact semicolon_of_spans hfound.spans
  rw [hshape]
  constructor
  · refine List.map_congr_left fun q hq => congrArg low32 (lineAtByte_clause_left ?_)
    have hle := hleft q (List.mem_filter.mp hq).1 _ List.mem_cons_self
    have hu : q.offset ≤ Text.size u := Nat.le_trans (Nat.le_add_right _ _) hle
    rw [Text.size_append]
    omega
  · rw [hintLinesOf, hintLinesOf, List.filter_map, List.map_map]
    refine List.map_congr_left fun q hq => ?_
    have hle : Text.size u + Text.size body ≤ q.offset := hright q (List.mem_filter.mp hq).1
    obtain ⟨n, hn⟩ : ∃ n, q.offset = Text.size (u ++ body) + n := by
      rw [Text.size_append]
      exact ⟨_, (Nat.add_sub_cancel' hle).symm⟩
    show low32 (Text.lineAtByte _ (q.offset + Text.size filterClause)) = _
    rw [hn, lineAtByte_clause_right hv n]

/-- The lines of the hints of a text with a clause. -/
theorem hintLines_clause {u body v : Text} {before behind : List Query}
    (h : queries (u ++ body ++ v) = before ++ ⟨Text.size u, body⟩ :: behind) :
    hintLines (u ++ (body ++ filterClause) ++ v) =
      hintLinesOf (u ++ body ++ v) before ++ hintLinesOf (u ++ body ++ v) behind := by
  obtain ⟨hleft, hright⟩ := hintLinesOf_clause h
  rw [hintLines_eq, queries_clause h, hintLinesOf_append,
    hintLinesOf_cons_of_filtered (isFiltered_clause _ _), hleft, hright]

/-- A query with a filter has no hint to lose. -/
theorem hintLines_clause_of_filtered {u body v : Text} {before behind : List Query}
    (h : queries (u ++ body ++ v) = before ++ ⟨Text.size u, body⟩ :: behind)
    (hf : (⟨Text.size u, body⟩ : Query).isFiltered = true) :
    hintLines (u ++ (body ++ filterClause) ++ v) = hintLines (u ++ body ++ v) := by
  rw [hintLines_clause h, hintLines_eq, h, hintLinesOf_append, hintLinesOf_cons_of_filtered hf]

/-- **Further clauses change nothing**, however many. -/
theorem hintLines_clauses {u body v : Text} {before behind : List Query}
    (h : queries (u ++ body ++ v) = before ++ ⟨Text.size u, body⟩ :: behind) (n : Nat) :
    (∃ behind', queries (u ++ (body ++ (List.replicate (n + 1) filterClause).flatten) ++ v) =
      before ++ ⟨Text.size u, body ++ (List.replicate (n + 1) filterClause).flatten⟩ :: behind') ∧
    hintLines (u ++ (body ++ (List.replicate (n + 1) filterClause).flatten) ++ v) =
      hintLines (u ++ (body ++ filterClause) ++ v) := by
  induction n with
  | zero =>
    have hone : (List.replicate (0 + 1) filterClause).flatten = filterClause := rfl
    rw [hone]
    exact ⟨⟨_, queries_clause h⟩, rfl⟩
  | succ n ih =>
    obtain ⟨⟨behind', hqueries⟩, hlines⟩ := ih
    have hflat : ∀ k, body ++ (List.replicate (k + 1) filterClause).flatten =
        body ++ (List.replicate k filterClause).flatten ++ filterClause := by
      intro k
      rw [List.replicate_succ', List.flatten_append, List.flatten_singleton, List.append_assoc]
    rw [hflat (n + 1)]
    refine ⟨⟨_, queries_clause hqueries⟩, ?_⟩
    rw [hintLines_clause_of_filtered hqueries (by rw [hflat n]; exact isFiltered_clause _ _),
      hlines]

/-- Every query of a text cuts it in three: what stands before it, the query, and what stands behind
    it, which is nothing or begins with a semicolon. -/
theorem exists_cut_of_query {t : Text} {q : Query} (h : q ∈ queries t) :
    ∃ u v, t = u ++ q.body ++ v ∧ q.offset = Text.size u ∧ ∀ c ∈ v.head?, c = ';' := by
  obtain ⟨s, e, hfound, rfl⟩ := mem_queriesBehind_iff.mp (show q ∈ queriesBehind t 0 from h)
  have hlt := hfound.spans.lt
  have hle := hfound.spans.le_length
  have hfront : t.take s ++ t.extract s e = t.take e := by
    rw [List.extract_eq_take_drop, ← List.take_add, Nat.add_sub_cancel' (Nat.le_of_lt hlt)]
  have hcut : t = t.take e ++ t.drop e := (List.take_append_drop e t).symm
  have hspans : Spans (t.take e ++ t.drop e) s (t.take e).length := by
    rw [← hcut, List.length_take_of_le hle]
    exact hfound.spans
  refine ⟨t.take s, t.drop e, ?_, rfl, semicolon_of_spans hspans⟩
  rw [hfront]
  exact hcut

/-- **A clause at the end of a query takes one hint.** Each query of a text has a place where it
    ends, before a semicolon or at the end of the text. A clause that filters is put in there. Then
    the search finds the same queries, this one with the clause at its end and those behind it
    further down. If the query had no filter, the lines of the hints are those of before without
    the one of this query; if it had one, they are the same. Further clauses at that place change
    nothing, however many. -/
theorem clause_takes_one_hint {t : Text} {q : Query} {before behind : List Query}
    (h : queries t = before ++ q :: behind) :
    ∃ u v, t = u ++ q.body ++ v ∧ q.offset = Text.size u ∧ (∀ c ∈ v.head?, c = ';') ∧
      queries (u ++ (q.body ++ filterClause) ++ v) =
        before ++ ⟨q.offset, q.body ++ filterClause⟩ ::
          behind.map (Query.shift (Text.size filterClause)) ∧
      (q.isFiltered = false →
        hintLines t =
          hintLinesOf t before ++ low32 (Text.lineAtByte t q.offset) :: hintLinesOf t behind ∧
        hintLines (u ++ (q.body ++ filterClause) ++ v) =
          hintLinesOf t before ++ hintLinesOf t behind) ∧
      (q.isFiltered = true →
        hintLines (u ++ (q.body ++ filterClause) ++ v) = hintLines t) ∧
      ∀ n, hintLines (u ++ (q.body ++ (List.replicate (n + 1) filterClause).flatten) ++ v) =
        hintLines (u ++ (q.body ++ filterClause) ++ v) := by
  obtain ⟨offset, body⟩ := q
  obtain ⟨u, v, hcut, hoffset, hv⟩ := exists_cut_of_query (q := ⟨offset, body⟩)
    (by rw [h]; exact List.mem_append_right _ List.mem_cons_self)
  obtain rfl : t = u ++ body ++ v := hcut
  obtain rfl : offset = Text.size u := hoffset
  refine ⟨u, v, rfl, rfl, hv, queries_clause h, fun hf => ⟨?_, hintLines_clause h⟩,
    hintLines_clause_of_filtered h, fun n => (hintLines_clauses h n).2⟩
  rw [hintLines_eq, h, hintLinesOf_append, hintLinesOf_cons_of_not_filtered hf]

/-- A query that ends on the line below, where the next one opens behind it: the hint of the first
    one goes, and the one of the second stays on its line. -/
theorem clause_takes_one_hint_of_two :
    let t := "FIND FROM\r\nGET;find from".toList
    let q : Query := ⟨0, "FIND FROM\r\nGET".toList⟩
    queries t = [] ++ q :: [⟨15, "find from".toList⟩] ∧ q.isFiltered = false ∧
    hintLines t = [0, 1] ∧
    ∃ u v, t = u ++ q.body ++ v ∧ hintLines (u ++ (q.body ++ filterClause) ++ v) = [1] := by
  intro t q
  have h : queries t = [] ++ q :: [⟨15, "find from".toList⟩] := by decide +kernel
  have hf : q.isFiltered = false := by decide +kernel
  obtain ⟨u, v, hcut, -, -, -, hhints, -, -⟩ := clause_takes_one_hint h
  obtain ⟨hbefore, hafter⟩ := hhints hf
  have hleft : hintLinesOf t [] = [] := rfl
  have hright : hintLinesOf t [⟨15, "find from".toList⟩] = [1] := by decide +kernel
  rw [hleft, hright] at hbefore hafter
  exact ⟨h, hf, hbefore, u, v, hcut, hafter⟩

end Nsql.Scan
