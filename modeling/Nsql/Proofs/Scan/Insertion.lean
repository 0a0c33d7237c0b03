/-
  File:      Nsql/Proofs/Scan/Insertion.lean
  Subject:   What the search for queries makes of a stretch that is put into a text.

  A stretch is put in between the two parts of a text. If it joins no words and cuts none, begins
  no FIND and no FROM, ends no query, and ends a line only where one begins or where the text ends
  (`Neutral`), then the search passes over it: it finds the queries that it has found before, where
  they have come to (`pushed`). If it holds no word character at all, the same queries have a
  filter as before, and so the hints are those of before, each on the line that its own has become.

  * `wordAt_insert_iff` -- the words of the longer text;
  * `fromAhead_insert_iff`, `opens_insert_iff`, `spans_insert` -- its queries;
  * `next_insert` -- the search goes from query to query as before;
  * **`queryFindings_insert`** -- the hints of the longer text.
-/
import Nsql.Proofs.Scan.Hints

namespace Nsql.Scan

open Text (WordAt Apart Lettered)
open Document (place)

/-! ## 1. Places -/

/-- Where a place comes to when `n` characters are put in at the place `a`. -/
def pushed (a n i : Nat) : Nat := if i < a then i else i + n

section Places

variable {a n i j : Nat}

theorem pushed_of_lt (h : i < a) : pushed a n i = i := if_pos h

theorem pushed_of_le (h : a ≤ i) : pushed a n i = i + n := if_neg (Nat.not_lt.mpr h)

theorem pushed_lt_iff : pushed a n i < pushed a n j ↔ i < j := by
  unfold pushed
  split <;> split <;> omega

theorem pushed_le_iff : pushed a n i ≤ pushed a n j ↔ i ≤ j := by
  unfold pushed
  split <;> split <;> omega

/-- Every place is one where something has come to, or one of the stretch. -/
theorem pushed_or_inside (a n j : Nat) : (∃ i, j = pushed a n i) ∨ ∃ k < n, j = a + k := by
  rcases Nat.lt_or_ge j a with hlt | hge
  · exact .inl ⟨j, (pushed_of_lt hlt).symm⟩
  · rcases Nat.lt_or_ge j (a + n) with hin | hbehind
    · exact .inr ⟨j - a, by omega, by omega⟩
    · refine .inl ⟨j - n, ?_⟩
      rw [pushed_of_le (by omega)]
      omega

end Places

section Insertion

variable {p x s : Text}

theorem getElem?_pushed (i : Nat) :
    (p ++ (x ++ s))[pushed p.length x.length i]? = (p ++ s)[i]? := by
  rcases Nat.lt_or_ge i p.length with hlt | hge
  · rw [pushed_of_lt hlt, List.getElem?_append_left hlt, List.getElem?_append_left hlt]
  · rw [pushed_of_le hge, List.getElem?_append_right (by omega), List.getElem?_append_right hge,
      List.getElem?_append_right (by omega)]
    congr 1
    omega

theorem getElem?_inside {k : Nat} (h : k < x.length) :
    (p ++ (x ++ s))[p.length + k]? = x[k]? := by
  rw [List.getElem?_append_right (Nat.le_add_right _ _), Nat.add_sub_cancel_left,
    List.getElem?_append_left h]

theorem length_insert : (p ++ (x ++ s)).length = (p ++ s).length + x.length := by
  simp only [List.length_append]
  omega

/-! ## 2. Words -/

/-- A stretch between two texts that joins no words and cuts none. -/
structure Parted (p x s : Text) : Prop where
  outer : Apart p s
  left : Apart p (x ++ s)
  right : Apart x s

/-- **The words around a stretch**: a word that none of its characters begins stands where it has
    come to. -/
theorem wordAt_insert_iff (h : Parted p x s) {letters : Letters} {word : Text} {first : Char}
    (hfirst : word[0]? = some first) (hx : ∀ c ∈ x, letters.same first c = false) {j : Nat} :
    WordAt letters word (p ++ (x ++ s)) j ↔
      ∃ i, j = pushed p.length x.length i ∧ WordAt letters word (p ++ s) i := by
  constructor
  · intro hword
    rcases Nat.lt_or_ge j p.length with hj | hj
    · have hp := (Text.wordAt_append_left h.left).mpr ⟨hword, hword.end_le h.left hj⟩
      exact ⟨j, (pushed_of_lt hj).symm, ((Text.wordAt_append_left h.outer).mp hp).1⟩
    · obtain ⟨m, rfl⟩ : ∃ m, j = p.length + m := ⟨j - p.length, by omega⟩
      have hrest := (Text.wordAt_append_right h.left).mpr hword
      rcases Nat.lt_or_ge m x.length with hm | hm
      · -- no character of the stretch begins the word
        obtain ⟨c, hc, hsame⟩ := hrest.spelled 0 first hfirst
        rw [Nat.add_zero, List.getElem?_append_left hm] at hc
        rw [hx c (List.mem_of_getElem? hc)] at hsame
        cases hsame
      · obtain ⟨m', rfl⟩ : ∃ m', m = x.length + m' := ⟨m - x.length, by omega⟩
        have hs := (Text.wordAt_append_right h.right).mpr hrest
        refine ⟨p.length + m', ?_, (Text.wordAt_append_right h.outer).mp hs⟩
        rw [pushed_of_le (Nat.le_add_right _ _)]
        omega
  · intro ⟨i, hj, hword⟩
    rw [hj]
    rcases Nat.lt_or_ge i p.length with hi | hi
    · have hp := (Text.wordAt_append_left h.outer).mpr ⟨hword, hword.end_le h.outer hi⟩
      rw [pushed_of_lt hi]
      exact ((Text.wordAt_append_left h.left).mp hp).1
    · obtain ⟨m, rfl⟩ : ∃ m, i = p.length + m := ⟨i - p.length, by omega⟩
      have hword' := (Text.wordAt_append_right h.outer).mpr hword
      have hs := (Text.wordAt_append_right h.right).mp hword'
      rw [pushed_of_le (Nat.le_add_right _ _),
        show p.length + m + x.length = p.length + (x.length + m) by omega]
      exact (Text.wordAt_append_right h.left).mp hs

/-- What comes behind a word still does where both have come to. -/
theorem pushed_end_le_iff (h : Parted p x s) {letters : Letters} {word : Text} {i k : Nat}
    (hword : WordAt letters word (p ++ s) i) :
    pushed p.length x.length i + word.length ≤ pushed p.length x.length k ↔
      i + word.length ≤ k := by
  have hlt := hword.run.lt
  rcases Nat.lt_or_ge i p.length with hi | hi
  · have hle := hword.end_le h.outer hi
    rw [pushed_of_lt hi]
    unfold pushed
    split <;> omega
  · rw [pushed_of_le hi]
    unfold pushed
    split <;> omega

/-! ## 3. Queries -/

/-- A stretch that the search for queries passes over. It ends a line only behind the end of one,
    at the start of the text or at its end. -/
structure Neutral (p x s : Text) : Prop extends Parted p x s where
  letters : ∀ c ∈ x, Letters.anyCase.same 'F' c = false
  semicolon : ';' ∉ x
  lineFeed : '\n' ∈ x → p = [] ∨ p.getLast? = some '\n' ∨ s = []

theorem wordAt_findWord_iff (h : Neutral p x s) {j : Nat} :
    WordAt .anyCase findWord (p ++ (x ++ s)) j ↔
      ∃ i, j = pushed p.length x.length i ∧ WordAt .anyCase findWord (p ++ s) i :=
  wordAt_insert_iff h.toParted rfl h.letters

theorem wordAt_fromWord_iff (h : Neutral p x s) {j : Nat} :
    WordAt .anyCase fromWord (p ++ (x ++ s)) j ↔
      ∃ i, j = pushed p.length x.length i ∧ WordAt .anyCase fromWord (p ++ s) i :=
  wordAt_insert_iff h.toParted rfl h.letters

/-- A line feed of the stretch is not the first one between two words: between them the first part
    has ended with one. -/
theorem exists_lineFeed_of_inside (h : Neutral p x s) {letters : Letters} {word : Text}
    {i k n : Nat} (hi : WordAt letters word (p ++ s) i) (hk : k < (p ++ s).length)
    (hn : n < x.length) (hfeed : x[n]? = some '\n')
    (hin : pushed p.length x.length i + word.length ≤ p.length + n)
    (hnk : p.length + n < pushed p.length x.length k) :
    ∃ j, i + word.length ≤ j ∧ j < k ∧ (p ++ s)[j]? = some '\n' := by
  have hlt : i < p.length := by
    refine Nat.lt_of_not_le fun hle => ?_
    rw [pushed_of_le hle] at hin
    omega
  have hle : p.length ≤ k := by
    refine Nat.le_of_not_lt fun hkp => ?_
    rw [pushed_of_lt hkp] at hnk
    omega
  rcases h.lineFeed (List.mem_of_getElem? hfeed) with rfl | hlast | rfl
  · exact absurd hlt (Nat.not_lt_zero i)
  · have hget : (p ++ s)[p.length - 1]? = some '\n' := by
      rw [List.getElem?_append_left (by omega), ← List.getLast?_eq_getElem?, hlast]
    have hend := hi.run.le_of_edge (k := p.length - 1) (by omega) (by rw [hget]; decide)
    exact ⟨p.length - 1, hend, by omega, hget⟩
  · rw [List.append_nil] at hk
    omega

/-- **FROM ahead of a FIND**: where it has come to. -/
theorem fromAhead_insert_iff (h : Neutral p x s) {q j : Nat}
    (hq : WordAt .anyCase findWord (p ++ s) q) :
    FromAhead (p ++ (x ++ s)) (pushed p.length x.length q + findWord.length) j ↔
      ∃ k, j = pushed p.length x.length k ∧ FromAhead (p ++ s) (q + findWord.length) k := by
  have hbehind := fun k => pushed_end_le_iff (k := k) h.toParted hq
  constructor
  · intro hj
    obtain ⟨k, rfl, hword⟩ := (wordAt_fromWord_iff h).mp hj.word
    refine ⟨k, rfl, (hbehind k).mp hj.le, hword, fun i hqi hik => ?_⟩
    rw [← getElem?_pushed (x := x)]
    exact hj.same_line _ ((hbehind i).mpr hqi) (pushed_lt_iff.mpr hik)
  · intro ⟨k, hj, hk⟩
    rw [hj]
    refine ⟨(hbehind k).mpr hk.le, (wordAt_fromWord_iff h).mpr ⟨k, rfl, hk.word⟩,
      fun i hqi hik hfeed => ?_⟩
    rcases pushed_or_inside p.length x.length i with ⟨l, rfl⟩ | ⟨n, hn, rfl⟩
    · rw [getElem?_pushed] at hfeed
      exact hk.same_line l ((hbehind l).mp hqi) (pushed_lt_iff.mp hik) hfeed
    · rw [getElem?_inside hn] at hfeed
      obtain ⟨l, hql, hlk, hl⟩ :=
        exists_lineFeed_of_inside h hq (lt_length_of_wordAt hk.word) hn hfeed hqi hik
      exact hk.same_line l hql hlk hl

/-- **Queries open where they have come to**, and nowhere else. -/
theorem opens_insert_iff (h : Neutral p x s) {j : Nat} :
    Opens (p ++ (x ++ s)) j ↔ ∃ i, j = pushed p.length x.length i ∧ Opens (p ++ s) i := by
  constructor
  · intro ⟨hword, k, hk⟩
    obtain ⟨i, rfl, hi⟩ := (wordAt_findWord_iff h).mp hword
    obtain ⟨l, -, hl⟩ := (fromAhead_insert_iff h hi).mp hk
    exact ⟨i, rfl, hi, l, hl⟩
  · intro ⟨i, hj, hi, l, hl⟩
    rw [hj]
    exact ⟨(wordAt_findWord_iff h).mpr ⟨i, rfl, hi⟩, _,
      (fromAhead_insert_iff h hi).mpr ⟨l, rfl, hl⟩⟩

/-- What stops at a place stops where the place has come to. -/
theorem stopsAt_insert (h : Neutral p x s) {k e : Nat} (hk : WordAt .anyCase fromWord (p ++ s) k)
    (hstop : StopsAt (p ++ s) (k + fromWord.length) e) :
    StopsAt (p ++ (x ++ s)) (pushed p.length x.length k + fromWord.length)
      (pushed p.length x.length e) := by
  have hbehind := fun i => pushed_end_le_iff (k := i) h.toParted hk
  have hend : pushed p.length x.length (p ++ s).length = (p ++ (x ++ s)).length := by
    rw [pushed_of_le (by rw [List.length_append]; omega), length_insert]
  refine ⟨(hbehind e).mpr hstop.le, ?_, fun j hkj hje hsemi => ?_, fun he => ?_⟩
  · rw [← hend]
    exact pushed_le_iff.mpr hstop.inside
  · rcases pushed_or_inside p.length x.length j with ⟨i, rfl⟩ | ⟨n, hn, rfl⟩
    · rw [getElem?_pushed] at hsemi
      exact hstop.none_before i ((hbehind i).mp hkj) (pushed_lt_iff.mp hje) hsemi
    · rw [getElem?_inside hn] at hsemi
      exact h.semicolon (List.mem_of_getElem? hsemi)
  · rw [← hend, pushed_lt_iff] at he
    rw [getElem?_pushed]
    exact hstop.semicolon he

/-- **A query spans what it has spanned**, and the stretch if that is in it or at its end. -/
theorem spans_insert (h : Neutral p x s) {i e : Nat} (hspans : Spans (p ++ s) i e) :
    Spans (p ++ (x ++ s)) (pushed p.length x.length i) (pushed p.length x.length e) := by
  obtain ⟨k, ⟨hk, hlast⟩, hstop⟩ := hspans.stops
  refine ⟨(wordAt_findWord_iff h).mpr ⟨i, rfl, hspans.opens⟩, pushed p.length x.length k,
    ⟨(fromAhead_insert_iff h hspans.opens).mpr ⟨k, rfl, hk⟩, fun j hj => ?_⟩,
    stopsAt_insert h hk.word hstop⟩
  obtain ⟨l, rfl, hl⟩ := (fromAhead_insert_iff h hspans.opens).mp hj
  exact pushed_le_iff.mpr (hlast hl)

/-- **The search goes on as before**: from a place that has the same places ahead of it, the next
    query is the one that was next. -/
theorem next_insert (h : Neutral p x s) {q q' i e : Nat}
    (hq : ∀ k, q ≤ k ↔ q' ≤ pushed p.length x.length k) (hnext : Next (p ++ s) q i e) :
    Next (p ++ (x ++ s)) q' (pushed p.length x.length i) (pushed p.length x.length e) := by
  obtain ⟨⟨hqi, hopens⟩, hleast⟩ := hnext.least
  refine ⟨⟨⟨(hq i).mp hqi, (opens_insert_iff h).mpr ⟨i, rfl, hopens⟩⟩, fun r ⟨hqr, hr⟩ => ?_⟩,
    spans_insert h hnext.spans⟩
  obtain ⟨k, rfl, hk⟩ := (opens_insert_iff h).mp hr
  exact pushed_le_iff.mpr (hleast ⟨(hq k).mpr hqr, hk⟩)

/-! ## 4. Hints -/

/-- A stretch without word characters begins no word that is written with letters. -/
theorem same_eq_false {letters : Letters} {word : Text} {first : Char} (hword : Lettered word)
    (hfirst : word[0]? = some first) (hx : ∀ c ∈ x, isWord c = false) :
    ∀ c ∈ x, letters.same first c = false := by
  intro c hc
  have halpha : first.isAlpha = true :=
    List.all_eq_true.mp hword.2 first (List.mem_of_getElem? hfirst)
  rw [← Bool.not_eq_true]
  intro hsame
  have hyes := isWord_of_same halpha hsame
  rw [hx c hc] at hyes
  cases hyes

/-- A stretch without word characters is neutral, if it ends no query and ends a line only where it
    may. -/
theorem neutral_of_not_isWord (hne : x ≠ []) (hx : ∀ c ∈ x, isWord c = false) (houter : Apart p s)
    (hsemi : ';' ∉ x) (hfeed : '\n' ∈ x → p = [] ∨ p.getLast? = some '\n' ∨ s = []) :
    Neutral p x s := by
  have hhead : isEdge (x ++ s).head? = true := by
    rw [List.head?_append_of_ne_nil x hne, List.head?_eq_some_head hne, isEdge_some,
      hx _ (List.head_mem hne)]
    rfl
  have hlast : isEdge x.getLast? = true := by
    rw [List.getLast?_eq_some_getLast hne, isEdge_some, hx _ (List.getLast_mem hne)]
    rfl
  exact ⟨⟨houter, .inr hhead, .inl hlast⟩, same_eq_false lettered_findWord rfl hx, hsemi, hfeed⟩

/-- **A query has a filter exactly if it had one.** -/
theorem filtered_insert_iff (h : Parted p x s) (hx : ∀ c ∈ x, isWord c = false) {i e : Nat} :
    Filtered (p ++ (x ++ s)) (pushed p.length x.length i) (pushed p.length x.length e) ↔
      Filtered (p ++ s) i e := by
  refine exists_congr fun w => and_congr_right fun hw => ?_
  obtain ⟨first, hfirst⟩ : ∃ first, w[0]? = some first :=
    ⟨_, List.getElem?_eq_getElem (List.length_pos_iff.mpr (lettered_filterWords w hw).1)⟩
  have hiff : ∀ j, WordAt .anyCase w (p ++ (x ++ s)) j ↔
      ∃ k, j = pushed p.length x.length k ∧ WordAt .anyCase w (p ++ s) k := fun j =>
    wordAt_insert_iff h hfirst (same_eq_false (lettered_filterWords w hw) hfirst hx)
  constructor
  · intro ⟨j, hij, hje, hj⟩
    obtain ⟨k, rfl, hk⟩ := (hiff j).mp hj
    exact ⟨k, pushed_le_iff.mp hij, (pushed_end_le_iff h hk).mp hje, hk⟩
  · intro ⟨k, hik, hke, hk⟩
    exact ⟨_, pushed_le_iff.mpr hik, (pushed_end_le_iff h hk).mpr hke, (hiff _).mpr ⟨k, rfl, hk⟩⟩

/-- The hint about the line of a place. -/
def hintAt (t : Text) (i : Nat) : Diagnostic :=
  missingFilter (place (t.take i)).line (Text.lineWidth (Text.lines t) (place (t.take i)).line)

theorem hint_eq_hintAt {t : Text} {i e : Nat} (h : Spans t i e) (body : Text) :
    Query.hint t ⟨Text.size (t.take i), body⟩ = hintAt t i := by
  rw [Query.hint, lineAtByte_of_wordAt h.opens, hintAt]

/-- The hints from a place on that has the same places ahead of it. -/
theorem hints_insert (h : Neutral p x s) (hx : ∀ c ∈ x, isWord c = false)
    {g : Diagnostic → Diagnostic}
    (hg : ∀ i, WordAt .anyCase findWord (p ++ s) i →
      hintAt (p ++ (x ++ s)) (pushed p.length x.length i) = g (hintAt (p ++ s) i))
    (q : Nat) : ∀ q', (∀ k, q ≤ k ↔ q' ≤ pushed p.length x.length k) →
      hints (p ++ (x ++ s)) (queriesBehind (p ++ (x ++ s)) q') =
        (hints (p ++ s) (queriesBehind (p ++ s) q)).map g := by
  induction q using search_induction (t := p ++ s) with
  | done q hnil hnone =>
    intro q' hq
    rcases queriesBehind_cases (p ++ (x ++ s)) q' with ⟨hnil', -⟩ | ⟨i, e, hnext, -⟩
    · rw [hnil, hnil']
      rfl
    · obtain ⟨k, rfl, hk⟩ := (opens_insert_iff h).mp hnext.spans.opensAt
      exact absurd hk (hnone k ((hq k).mpr hnext.least.1.1))
  | query q i e hnext hqueries ih =>
    intro q' hq
    have hnext' := next_insert h hq hnext
    have hrest := ih _ fun k => pushed_le_iff.symm
    have hfiltered := isFiltered_iff hnext.spans (Text.size ((p ++ s).take i))
    have hfiltered' := isFiltered_iff hnext'.spans
      (Text.size ((p ++ (x ++ s)).take (pushed p.length x.length i)))
    rw [filtered_insert_iff h.toParted hx] at hfiltered'
    rw [hqueries, queriesBehind_of_next hnext']
    by_cases hf : Filtered (p ++ s) i e
    · rw [hints_cons_of_filtered (hfiltered.mpr hf), hints_cons_of_filtered (hfiltered'.mpr hf),
        hrest]
    · rw [hints_cons_of_not_filtered fun hyes => hf (hfiltered.mp hyes),
        hints_cons_of_not_filtered fun hyes => hf (hfiltered'.mp hyes), hrest, List.map_cons,
        hint_eq_hintAt hnext.spans, hint_eq_hintAt hnext'.spans, hg i hnext.spans.opens]

/-- **The hints of a text with a neutral stretch of no word characters**: those of before, each on
    the line that its own has become. -/
theorem queryFindings_insert (h : Neutral p x s) (hx : ∀ c ∈ x, isWord c = false)
    {g : Diagnostic → Diagnostic}
    (hg : ∀ i, WordAt .anyCase findWord (p ++ s) i →
      hintAt (p ++ (x ++ s)) (pushed p.length x.length i) = g (hintAt (p ++ s) i)) :
    queryFindings (p ++ (x ++ s)) = (queryFindings (p ++ s)).map g :=
  hints_insert h hx hg 0 0 fun _ => iff_of_true (Nat.zero_le _) (Nat.zero_le _)

end Insertion

end Nsql.Scan
