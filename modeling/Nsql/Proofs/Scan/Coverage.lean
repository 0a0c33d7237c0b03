/-
  File:      Nsql/Proofs/Scan/Coverage.lean
  Subject:   The query that a statement is part of.

  A statement goes from one semicolon to the next, and one that asks for records without a filter
  should get a hint. The search does not know statements: a query goes on to the first semicolon
  behind the last FROM of its line, and on its way there it may run over semicolons. So a query
  may have begun in a statement further to the left, and it may go on into one further to the
  right; it has a filter if any of them has one.

  * `mem_queriesBehind_iff`, `Found.eq_or_apart` -- the queries as stretches of the text;
  * `mem_queryFindings_iff`, `hint_iff_of_found` -- a query has its hint unless it has a filter;
  * `exists_query_around` -- the query around a statement, and how far it reaches on either side;
  * **`statement_is_hinted_unless_joined`** -- so a statement that stands alone has its hint;
  * `filter_counts_for_next_statement` -- and one that does not may lose it.
-/
import Nsql.Proofs.Scan.Hints

namespace Nsql.Scan

open Text (WordAt before?)
open Document (OnLine)

/-! ## 1. Queries as stretches of the text -/

/-- The queries that the search comes across from a place on: the first one that opens there or
    further on, and those that it comes across where this one ends. -/
inductive Found (t : Text) : Nat → Nat → Nat → Prop where
  | first {p s e : Nat} (h : Next t p s e) : Found t p s e
  | later {p s e s' e' : Nat} (h : Next t p s e) (hl : Found t e s' e') : Found t p s' e'

namespace Found

variable {t : Text} {p s e s' e' : Nat}

theorem spans (h : Found t p s e) : Spans t s e := by
  induction h with
  | first h => exact h.spans
  | later _ _ ih => exact ih

theorem le (h : Found t p s e) : p ≤ s := by
  induction h with
  | first h => exact h.least.1.1
  | later h _ ih =>
    have hlt := h.lt
    omega

/-- Two queries are the same, or one ends before the other begins. -/
theorem eq_or_apart (h : Found t p s e) (h' : Found t p s' e') :
    s = s' ∧ e = e' ∨ e ≤ s' ∨ e' ≤ s := by
  induction h with
  | first h =>
    cases h' with
    | first h' => exact .inl (h.unique h')
    | later h' hl' =>
      obtain ⟨rfl, rfl⟩ := h.unique h'
      exact .inr (.inl hl'.le)
  | later h hl ih =>
    cases h' with
    | first h' =>
      obtain ⟨rfl, rfl⟩ := h.unique h'
      exact .inr (.inr hl.le)
    | later h' hl' =>
      obtain ⟨rfl, rfl⟩ := h.unique h'
      exact ih hl'

end Found

/-- **The queries that the search finds are those that it comes across.** -/
theorem mem_queriesBehind_iff {t : Text} {p : Nat} {q : Query} :
    q ∈ queriesBehind t p ↔
      ∃ s e, Found t p s e ∧ q = ⟨Text.size (t.take s), t.extract s e⟩ := by
  constructor
  · induction p using search_induction (t := t) with
    | done p hnil _ =>
      intro hq
      rw [hnil] at hq
      cases hq
    | query p s e hnext hqueries ih =>
      intro hq
      rw [hqueries] at hq
      rcases List.mem_cons.mp hq with rfl | hq
      · exact ⟨s, e, .first hnext, rfl⟩
      · obtain ⟨s', e', hfound, hq'⟩ := ih hq
        exact ⟨s', e', .later hnext hfound, hq'⟩
  · intro ⟨s, e, hfound, hq⟩
    rw [hq]
    induction hfound with
    | first h =>
      rw [queriesBehind_of_next h]
      exact List.mem_cons_self
    | later h _ ih =>
      rw [queriesBehind_of_next h]
      exact List.mem_cons_of_mem _ (ih hq)

/-- Where a query opens, the search comes across it or across one that has begun before and goes
    on behind that place. -/
theorem exists_found_of_opens {t : Text} {p s : Nat} (hs : Opens t s) (hp : p ≤ s) :
    ∃ s' e', Found t p s' e' ∧ s' ≤ s ∧ s < e' := by
  induction p using search_induction (t := t) with
  | done p _ hnone => exact absurd hs (hnone s hp)
  | query p r e hnext _ ih =>
    have hrs : r ≤ s := hnext.least.2 ⟨hp, hs⟩
    rcases Nat.lt_or_ge s e with hlt | hge
    · exact ⟨r, e, .first hnext, hrs, hlt⟩
    · obtain ⟨s', e', hfound, hcovers⟩ := ih hge
      exact ⟨s', e', .later hnext hfound, hcovers⟩

/-! ## 2. Hints and queries -/

/-- **The hints are those of the queries without a filter.** -/
theorem mem_queryFindings_iff {t : Text} {d : Diagnostic} :
    d ∈ queryFindings t ↔ ∃ s e i line, Found t 0 s e ∧ ¬ Filtered t s e ∧ OnLine t s i ∧
      (Text.lines t)[i]? = some line ∧ d = missingFilter i (Text.width line) := by
  have hqueries : queries t = queriesBehind t 0 := rfl
  rw [queryFindings_eq, List.mem_map, hqueries]
  constructor
  · intro ⟨q, hq, hd⟩
    obtain ⟨hmem, hfiltered⟩ := List.mem_filter.mp hq
    obtain ⟨s, e, hfound, rfl⟩ := mem_queriesBehind_iff.mp hmem
    obtain ⟨i, line, hi, hline, hhint⟩ := exists_hint_eq hfound.spans
    refine ⟨s, e, i, line, hfound, fun hf => ?_, hi, hline, hd.symm.trans hhint⟩
    rw [(isFiltered_iff hfound.spans _).mpr hf] at hfiltered
    cases hfiltered
  · intro ⟨s, e, i, line, hfound, hf, hi, hline, hd⟩
    obtain ⟨i', line', hi', hline', hhint⟩ := exists_hint_eq hfound.spans
    obtain rfl := hi.unique hi'
    obtain rfl := Option.some.inj (hline.symm.trans hline')
    refine ⟨_, List.mem_filter.mpr ⟨mem_queriesBehind_iff.mpr ⟨s, e, hfound, rfl⟩, ?_⟩,
      hhint.trans hd.symm⟩
    rw [Bool.not_eq_true', ← Bool.not_eq_true, isFiltered_iff hfound.spans]
    exact hf

/-- **The line on which a query opens has a hint exactly if the query has no filter**: no other
    query opens on that line, and no other line has its number in 32 bits. -/
theorem hint_iff_of_found {t : Text} (hlen : (Text.lines t).length ≤ 4294967296) {s e i : Nat}
    (h : Found t 0 s e) (hi : OnLine t s i) :
    (∃ d ∈ queryFindings t, d.range.start.line = i) ↔ ¬ Filtered t s e := by
  have hcut : ∀ {n : Nat} {line : Text}, (Text.lines t)[n]? = some line → low32 n = n :=
    fun hn => low32_eq_self (Nat.lt_of_lt_of_le (List.getElem?_eq_some_iff.mp hn).1 hlen)
  constructor
  · intro ⟨d, hd, hline⟩
    obtain ⟨s', e', i', line, hfound, hf, hi', hline', rfl⟩ := mem_queryFindings_iff.mp hd
    obtain rfl : i' = i := (hcut hline').symm.trans hline
    have hsev := not_severs_of_wordAt h.spans.opens
    have hsev' := not_severs_of_wordAt hfound.spans.opens
    rcases h.eq_or_apart hfound with ⟨rfl, rfl⟩ | hapart | hapart
    · exact hf
    · obtain ⟨j, hsj, hj, hfeed⟩ := exists_lineFeed_between h.spans hfound.spans.opensAt hapart
      exact absurd (hi.lt_of_lineFeed hi' hsev hsev' (lt_length_of_wordAt hfound.spans.opens)
        hsj hj hfeed) (Nat.lt_irrefl _)
    · obtain ⟨j, hsj, hj, hfeed⟩ := exists_lineFeed_between hfound.spans h.spans.opensAt hapart
      exact absurd (hi'.lt_of_lineFeed hi hsev' hsev (lt_length_of_wordAt h.spans.opens)
        hsj hj hfeed) (Nat.lt_irrefl _)
  · intro hf
    obtain ⟨i', line, hi', hline, -⟩ := exists_hint_eq h.spans
    obtain rfl := hi.unique hi'
    exact ⟨_, mem_queryFindings_iff.mpr ⟨s, e, i, line, h, hf, hi, hline, rfl⟩, hcut hline⟩

/-- A filter stands on one side of a place at which no word goes on. -/
theorem filtered_iff_of_edge {t : Text} {s m e : Nat} (hsm : s ≤ m) (hme : m ≤ e)
    (hm : isEdge (before? t m) = true ∨ isEdge t[m]? = true) :
    Filtered t s e ↔ Filtered t s m ∨ Filtered t m e := by
  constructor
  · intro ⟨w, hw, i, hsi, hie, hword⟩
    by_cases hleft : i + w.length ≤ m
    · exact .inl ⟨w, hw, i, hsi, hleft, hword⟩
    · refine .inr ⟨w, hw, i, Nat.le_of_not_lt fun him => ?_, hie, hword⟩
      -- the word would have a letter on either side of the place
      obtain ⟨k, rfl⟩ : ∃ k, m = k + 1 := ⟨m - 1, by omega⟩
      obtain ⟨c, hc, hcword⟩ := hword.run.word k (by omega) (by omega)
      obtain ⟨c', hc', hcword'⟩ := hword.run.word (k + 1) (by omega) (by omega)
      rw [Text.before?_succ, hc, hc', isEdge_some, isEdge_some, hcword, hcword'] at hm
      simp at hm
  · intro h
    rcases h with ⟨w, hw, i, hsi, hie, hword⟩ | ⟨w, hw, i, hsi, hie, hword⟩
    · exact ⟨w, hw, i, hsi, by omega, hword⟩
    · exact ⟨w, hw, i, by omega, hie, hword⟩

/-! ## 3. Statements -/

/-- A statement: what stands between two semicolons, or between one of them and an end of the
    text. -/
structure IsStatement (t : Text) (a b : Nat) : Prop where
  front : ∀ c ∈ before? t a, c = ';'
  stops : StopsAt t a b

instance (t : Text) (a b : Nat) : Decidable (IsStatement t a b) :=
  decidable_of_iff ((before? t a).all (· == ';') = true ∧ StopsAt t a b)
    ⟨fun ⟨hfront, hstops⟩ =>
        ⟨fun c hc => beq_iff_eq.mp ((Option.all_eq_true ..).mp hfront c hc), hstops⟩,
      fun h => ⟨(Option.all_eq_true ..).mpr fun c hc => beq_iff_eq.mpr (h.front c hc), h.stops⟩⟩

/-- A word FIND that has a word FROM behind it on its line, before the statement ends. -/
def AsksWithin (t : Text) (s b : Nat) : Prop :=
  WordAt .anyCase findWord t s ∧
    ∃ k, FromAhead t (s + findWord.length) k ∧ k + fromWord.length ≤ b

theorem AsksWithin.opens {t : Text} {s b : Nat} (h : AsksWithin t s b) : Opens t s := by
  obtain ⟨hword, k, hk, -⟩ := h
  exact ⟨hword, k, hk⟩

theorem AsksWithin.lt {t : Text} {s b : Nat} (h : AsksWithin t s b) : s < b := by
  obtain ⟨-, k, hk, hle⟩ := h
  have hsk := hk.le
  have hpos : 0 < fromWord.length := by decide
  omega

/-- A query that opens before a word FIND of a statement has its own FROM before the statement
    ends: on the line of that FIND, or else on a line before. -/
theorem AsksWithin.of_opens {t : Text} {s s' b : Nat} (h : AsksWithin t s b) (hs' : Opens t s')
    (hle : s' ≤ s) : AsksWithin t s' b := by
  have hsb := h.lt
  obtain ⟨hword, k, hk, hkb⟩ := h
  obtain ⟨hword', k', hk'⟩ := hs'
  have hsk := hk.le
  refine ⟨hword', ?_⟩
  by_cases hfeed : ∃ j, s' ≤ j ∧ j < s ∧ t[j]? = some '\n'
  · obtain ⟨j, hsj, hjs, hj⟩ := hfeed
    have hbehind : s' + findWord.length ≤ j := by
      by_contra hin
      exact hword'.run.ne_of_not_isWord (by decide) hsj (by omega) hj
    have hlast : k' ≤ j := by
      by_contra hin
      exact hk'.same_line j hbehind (by omega) hj
    have hend : k' + fromWord.length ≤ j := by
      by_contra hin
      exact hk'.word.run.ne_of_not_isWord (by decide) hlast (by omega) hj
    exact ⟨k', hk', by omega⟩
  · refine ⟨k, ⟨by omega, hk.word, fun j hj hjk hnl => ?_⟩, hkb⟩
    rcases Nat.lt_or_ge j s with hjs | hjs
    · exact hfeed ⟨j, by omega, hjs, hnl⟩
    · rcases Nat.lt_or_ge j (s + findWord.length) with hin | hbehind
      · exact hword.run.ne_of_not_isWord (by decide) hjs hin hnl
      · exact hk.same_line j hbehind hjk hnl

/-- What reaches into a statement from the left has its last FROM there or further on: else it
    would have ended at the semicolon before the statement. -/
theorem le_of_stopsAt {t : Text} {a b k e s : Nat} (hst : IsStatement t a b) (ha : 0 < a)
    (hk : WordAt .anyCase fromWord t k) (hstop : StopsAt t (k + fromWord.length) e) (has : a ≤ s)
    (hse : s < e) : a ≤ k := by
  obtain ⟨m, rfl⟩ : ∃ m, a = m + 1 := ⟨a - 1, by omega⟩
  have hinside := hst.stops.inside
  have hle := hst.stops.le
  have hsemi : t[m]? = some ';' := by
    have hget := List.getElem?_eq_getElem (show m < t.length by omega)
    rw [hget, hst.front _ hget]
  by_contra hlt
  have hend : k + fromWord.length ≤ m := by
    by_contra hin
    exact hk.run.ne_of_not_isWord (by decide) (by omega) (by omega) hsemi
  exact hstop.none_before m hend (by omega) hsemi

/-- A query with its last FROM in a statement or further on goes on to the end of the statement,
    and further only if that FROM stands behind it. -/
theorem end_of_stopsAt {t : Text} {a b k e : Nat} (hst : IsStatement t a b)
    (hk : WordAt .anyCase fromWord t k) (hstop : StopsAt t (k + fromWord.length) e) (hak : a ≤ k) :
    b ≤ e ∧ (e = b ∨ b < k) := by
  have hle := hstop.le
  have hpos : 0 < fromWord.length := by decide
  have hbe : b ≤ e := by
    by_contra hlt
    have hinside := hst.stops.inside
    exact hst.stops.none_before e (by omega) (by omega) (hstop.semicolon (by omega))
  refine ⟨hbe, ?_⟩
  rcases Nat.lt_or_ge b e with hlt | hge
  · right
    have hinside := hstop.inside
    have hsemi := hst.stops.semicolon (by omega)
    by_contra hkb
    rcases Nat.lt_or_ge b (k + fromWord.length) with hin | hbehind
    · exact hk.run.ne_of_not_isWord (by decide) (by omega) hin hsemi
    · exact hstop.none_before b hbehind hlt hsemi
  · left
    omega

/-! ## 4. The query around a statement -/

/-- **The query around a statement.** The first word FIND of a statement that has a FROM behind it
    on its line is part of a query that goes on to the end of the statement at least. This query
    begins at that word, or before the statement at a FIND with a FROM behind it on its line that
    is not before the statement; and it ends with the statement, or its line has a FROM behind the
    statement. -/
theorem exists_query_around {t : Text} {a b s : Nat} (hst : IsStatement t a b)
    (hs : IsLeast {s | a ≤ s ∧ AsksWithin t s b} s) :
    ∃ s' e', Found t 0 s' e' ∧ s' ≤ s ∧ b ≤ e' ∧
      (s' = s ∨ s' < a ∧ ∃ k, a ≤ k ∧ FromAhead t (s' + findWord.length) k) ∧
      (e' = b ∨ ∃ k, b < k ∧ FromAhead t (s' + findWord.length) k) := by
  obtain ⟨⟨has, hasks⟩, hleast⟩ := hs
  obtain ⟨s', e', hfound, hle, hlt⟩ := exists_found_of_opens hasks.opens (Nat.zero_le s)
  obtain ⟨k, ⟨hk, -⟩, hstop⟩ := hfound.spans.stops
  have hsk := hk.le
  have hak : a ≤ k := by
    rcases Nat.lt_or_ge s' a with hbefore | hin
    · exact le_of_stopsAt hst (by omega) hk.word hstop has hlt
    · omega
  obtain ⟨hbe, hend⟩ := end_of_stopsAt hst hk.word hstop hak
  refine ⟨s', e', hfound, hle, hbe, ?_, ?_⟩
  · rcases Nat.lt_or_ge s' a with hbefore | hin
    · exact .inr ⟨hbefore, k, hak, hk⟩
    · have hfirst : s ≤ s' := hleast ⟨hin, hasks.of_opens hfound.spans.opensAt hle⟩
      exact .inl (by omega)
  · rcases hend with heq | hkb
    · exact .inl heq
    · exact .inr ⟨k, hkb, hk⟩

/-- A statement stands alone if no FIND before it has a FROM behind it on its line that is not
    before the statement, and no FROM behind the statement is on the line of its own FIND. -/
structure StandsAlone (t : Text) (a b s : Nat) : Prop where
  before : ∀ r k, r < a → a ≤ k → WordAt .anyCase findWord t r →
    ¬ FromAhead t (r + findWord.length) k
  behind : ∀ k, b < k → ¬ FromAhead t (s + findWord.length) k

/-- **A statement that asks without a filter has its hint, unless it is joined with another one.**
    The first word FIND of the statement that has a FROM behind it on its line is part of a query.
    This query begins with that word or before the statement, on the line of a FROM that is not
    before the statement, and it ends with the statement or behind it. The line on which the query
    opens has a hint exactly if no word that filters stands in what the query has before that FIND
    and behind the statement, as long as the lines can be counted in 32 bits. So a statement that
    stands alone has the hint on the line of its FIND. -/
theorem statement_is_hinted_unless_joined {t : Text} {a b s i : Nat} (hst : IsStatement t a b)
    (hs : IsLeast {s | a ≤ s ∧ AsksWithin t s b} s) (hf : ¬ Filtered t s b) (hi : OnLine t s i) :
    (∃ s' e' i', ⟨Text.size (t.take s'), t.extract s' e'⟩ ∈ queries t ∧ s' ≤ s ∧ b ≤ e' ∧
      (s' = s ∨ s' < a ∧ ∃ k, a ≤ k ∧ FromAhead t (s' + findWord.length) k) ∧
      (e' = b ∨ ∃ k, b < k ∧ FromAhead t (s' + findWord.length) k) ∧
      OnLine t s' i' ∧
      ((Text.lines t).length ≤ 4294967296 →
        ((∃ d ∈ queryFindings t, d.range.start.line = i') ↔
          ¬ Filtered t s' s ∧ ¬ Filtered t b e'))) ∧
    (StandsAlone t a b s → ∃ line, (Text.lines t)[i]? = some line ∧
      missingFilter i (Text.width line) ∈ queryFindings t) := by
  obtain ⟨s', e', hfound, hle, hbe, hbegins, hends⟩ := exists_query_around hst hs
  have hasks : AsksWithin t s b := hs.1.2
  have hsb := hasks.lt
  obtain ⟨i', line, hi', hline, -⟩ := exists_hint_eq hfound.spans
  have hparts : ¬ Filtered t s' e' ↔ ¬ Filtered t s' s ∧ ¬ Filtered t b e' := by
    rw [filtered_iff_of_edge hle (by omega) (.inl hasks.1.run.edge_before),
      filtered_iff_of_edge (Nat.le_of_lt hsb) hbe (.inr hst.stops.edge_behind), not_or, not_or]
    exact ⟨fun h => ⟨h.1, h.2.2⟩, fun h => ⟨h.1, hf, h.2⟩⟩
  refine ⟨⟨s', e', i', mem_queriesBehind_iff.mpr ⟨s', e', hfound, rfl⟩, hle, hbe, hbegins, hends,
    hi', fun hlen => ?_⟩, fun halone => ?_⟩
  · rw [hint_iff_of_found hlen hfound hi', hparts]
  · obtain rfl : s' = s := by
      rcases hbegins with heq | ⟨hlt, k, hak, hk⟩
      · exact heq
      · exact absurd hk (halone.before s' k hlt hak hfound.spans.opens)
    obtain rfl : e' = b := by
      rcases hends with heq | ⟨k, hbk, hk⟩
      · exact heq
      · exact absurd hk (halone.behind k hbk)
    obtain rfl := hi.unique hi'
    exact ⟨line, hline, mem_queryFindings_iff.mpr ⟨s', e', i, line, hfound, hf, hi, hline, rfl⟩⟩

/-- A statement below one with a filter, and with a FROM on the line where it ends: it stands alone,
    although a lone carriage return stands between its words. -/
theorem statement_is_hinted_between_lines :
    let t := "FIND FROM IF;\nfind\rfrom\n; FROM".toList
    IsStatement t 13 24 ∧ IsLeast {s | 13 ≤ s ∧ AsksWithin t s 24} 14 ∧ ¬ Filtered t 14 24 ∧
    OnLine t 14 1 ∧ StandsAlone t 13 24 14 ∧
    ∃ line, (Text.lines t)[1]? = some line ∧
      missingFilter 1 (Text.width line) ∈ queryFindings t := by
  intro t
  have hst : IsStatement t 13 24 := by decide +kernel
  have hleast : IsLeast {s | 13 ≤ s ∧ AsksWithin t s 24} 14 := by
    refine ⟨⟨by decide, by decide +kernel, 19, by decide +kernel, by decide⟩, fun s hs => ?_⟩
    rcases Nat.eq_or_lt_of_le hs.1 with rfl | hlt
    · exact absurd hs.2.1 (by decide +kernel)
    · exact hlt
  have hf : ¬ Filtered t 14 24 := by
    rw [← holdsWord_extract_iff (by decide +kernel) (by decide +kernel)]
    decide +kernel
  have hi : OnLine t 14 1 := ⟨by decide +kernel, by decide +kernel⟩
  have hsemi : t[12]? = some ';' := by decide +kernel
  have hfeed : t[13]? = some '\n' ∧ t[23]? = some '\n' := by decide +kernel
  have halone : StandsAlone t 13 24 14 := by
    refine ⟨fun r k hr hk hword hahead => ?_, fun k hk hahead => ?_⟩
    · have hend : r + findWord.length ≤ 12 := by
        by_contra hin
        exact hword.run.ne_of_not_isWord (by decide) (by omega) (by omega) hsemi
      rcases Nat.eq_or_lt_of_le hk with rfl | hlt
      · exact hahead.word.run.ne_of_not_isWord (by decide) (Nat.le_refl _) hahead.word.run.lt
          hfeed.1
      · exact hahead.same_line 13 (by omega) hlt hfeed.1
    · exact hahead.same_line 23 (by decide) (by omega) hfeed.2
  exact ⟨hst, hleast, hf, hi, halone,
    (statement_is_hinted_unless_joined hst hleast hf hi).2 halone⟩

/-- **A filter counts for the next statement on the line.** Of two statements on one line the first
    has a filter and the second has none, and no hint is given. -/
theorem filter_counts_for_next_statement :
    let t := "FIND a FROM b WHERE c; FIND d FROM e;".toList
    IsStatement t 22 36 ∧ IsLeast {s | 22 ≤ s ∧ AsksWithin t s 36} 23 ∧ ¬ Filtered t 23 36 ∧
    OnLine t 23 0 ∧ ¬ ∃ d ∈ queryFindings t, d.range.start.line = 0 := by
  intro t
  refine ⟨by decide +kernel, ⟨⟨by decide, by decide +kernel, 30, by decide +kernel, by decide⟩,
    fun s hs => ?_⟩, ?_, ⟨by decide +kernel, by decide +kernel⟩, ?_⟩
  · rcases Nat.eq_or_lt_of_le hs.1 with rfl | hlt
    · exact absurd hs.2.1 (by decide +kernel)
    · exact hlt
  · rw [← holdsWord_extract_iff (by decide +kernel) (by decide +kernel)]
    decide +kernel
  · have hnone : queryFindings t = [] := by decide +kernel
    rw [hnone]
    exact fun ⟨d, hd, _⟩ => absurd hd List.not_mem_nil

end Nsql.Scan
