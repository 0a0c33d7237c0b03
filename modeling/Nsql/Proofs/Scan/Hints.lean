/-
  File:      Nsql/Proofs/Scan/Hints.lean
  Subject:   The hints about queries, said of the text as a whole.

  The search for queries goes through a text once and carries along what it has seen. What it finds
  can be said without it: a query opens at a word FIND that has a word FROM behind it before the
  next line feed (`Opens`), and it goes on to the first semicolon behind the last such FROM
  (`Spans`). From any place on the next query is the one that opens first (`Next`), and the search
  goes on where it ends. A query without a filter word in it gets a hint on its line (`Hinted`).

  * `behindLastFrom?_spec`, `queryAt?_spec` -- what the search finds at one place;
  * `queriesBehind_cases`, `search_induction` -- what it finds from one place on;
  * `hinted_iff` -- the hints from one place on;
  * `exists_lineFeed_between` -- no two queries open on one line;
  * **`queryFindings_closed_form`** -- the hints of a text, at most one for each line.
-/
import Mathlib.Order.Bounds.Basic
import Nsql.Proofs.Document.Offsets
import Nsql.Proofs.Text.Runs

namespace Nsql.Scan

open Text (WordAt IsRun before? Lettered)
open Document (OnLine Severs place breaks)

/-! ## 1. Queries and hints -/

/-- A word FROM at or behind a place, before the next line feed. -/
structure FromAhead (t : Text) (i k : Nat) : Prop where
  le : i ≤ k
  word : WordAt .anyCase fromWord t k
  same_line : ∀ j, i ≤ j → j < k → t[j]? ≠ some '\n'

/-- A query opens at a word FIND with a word FROM behind it before the next line feed. -/
def Opens (t : Text) (s : Nat) : Prop :=
  WordAt .anyCase findWord t s ∧ ∃ k, FromAhead t (s + findWord.length) k

/-- The first semicolon at or behind a place, or the end of the text. -/
structure StopsAt (t : Text) (i e : Nat) : Prop where
  le : i ≤ e
  inside : e ≤ t.length
  none_before : ∀ j, i ≤ j → j < e → t[j]? ≠ some ';'
  semicolon : e < t.length → t[e]? = some ';'

instance (t : Text) (i k : Nat) : Decidable (FromAhead t i k) :=
  decidable_of_iff
    (i ≤ k ∧ WordAt .anyCase fromWord t k ∧ ∀ j, j < k → i ≤ j → t[j]? ≠ some '\n')
    ⟨fun ⟨hle, hword, hline⟩ => ⟨hle, hword, fun j hij hjk => hline j hjk hij⟩,
      fun h => ⟨h.le, h.word, fun j hjk hij => h.same_line j hij hjk⟩⟩

instance (t : Text) (i e : Nat) : Decidable (StopsAt t i e) :=
  decidable_of_iff
    (i ≤ e ∧ e ≤ t.length ∧ (∀ j, j < e → i ≤ j → t[j]? ≠ some ';') ∧
      (e < t.length → t[e]? = some ';'))
    ⟨fun ⟨hle, hinside, hnone, hsemi⟩ => ⟨hle, hinside, fun j hij hje => hnone j hje hij, hsemi⟩,
      fun h => ⟨h.le, h.inside, fun j hje hij => h.none_before j hij hje, h.semicolon⟩⟩

/-- A query from its word FIND to the first semicolon behind the last word FROM of the line. -/
structure Spans (t : Text) (s e : Nat) : Prop where
  opens : WordAt .anyCase findWord t s
  stops : ∃ k, IsGreatest {k | FromAhead t (s + findWord.length) k} k ∧
    StopsAt t (k + fromWord.length) e

/-- The first query that opens at or behind a place. -/
structure Next (t : Text) (p s e : Nat) : Prop where
  least : IsLeast {s | p ≤ s ∧ Opens t s} s
  spans : Spans t s e

/-- Whether a word that filters stands between two places. -/
def Filtered (t : Text) (s e : Nat) : Prop :=
  ∃ w ∈ filterWords, ∃ i, s ≤ i ∧ i + w.length ≤ e ∧ WordAt .anyCase w t i

/-- The hints from a place on: one after the other, the queries that open there or further on, each
    from where the one before it ended; one without a filter has a hint about the line on which it
    opens, from end to end. -/
inductive Hinted (t : Text) : Nat → List Diagnostic → Prop where
  | done {p : Nat} (h : ∀ s, p ≤ s → ¬ Opens t s) : Hinted t p []
  | filtered {p s e : Nat} {ds : List Diagnostic} (h : Next t p s e) (hf : Filtered t s e)
      (hds : Hinted t e ds) : Hinted t p ds
  | hint {p s e i : Nat} {line : Text} {ds : List Diagnostic} (h : Next t p s e)
      (hf : ¬ Filtered t s e) (hi : OnLine t s i) (hline : (Text.lines t)[i]? = some line)
      (hds : Hinted t e ds) : Hinted t p
        (.ofLine .information .missingFilter missingFilterMessage i (Text.width line) :: ds)

theorem lettered_findWord : Lettered findWord := by decide

theorem lettered_fromWord : Lettered fromWord := by decide

theorem lettered_filterWords : ∀ w ∈ filterWords, Lettered w := by decide

/-! ## 2. The last FROM -/

/-- A word FROM ahead is right here, or it is ahead of the next place and no line feed is here. -/
theorem fromAhead_iff {t : Text} {i k : Nat} :
    FromAhead t i k ↔
      k = i ∧ WordAt .anyCase fromWord t i ∨ t[i]? ≠ some '\n' ∧ FromAhead t (i + 1) k := by
  constructor
  · intro h
    rcases Nat.eq_or_lt_of_le h.le with rfl | hlt
    · exact .inl ⟨rfl, h.word⟩
    · exact .inr ⟨h.same_line i (Nat.le_refl i) hlt, hlt, h.word,
        fun j hij hjk => h.same_line j (by omega) hjk⟩
  · rintro (⟨rfl, hword⟩ | ⟨hi, h⟩)
    · exact ⟨Nat.le_refl _, hword, fun j hij hjk => absurd hjk (by omega)⟩
    · have hle := h.le
      refine ⟨by omega, h.word, fun j hij hjk => ?_⟩
      rcases Nat.eq_or_lt_of_le hij with rfl | hlt
      · exact hi
      · exact h.same_line j hlt hjk

/-- A word stands inside its text. -/
theorem lt_length_of_wordAt {letters : Letters} {word t : Text} {i : Nat}
    (h : WordAt letters word t i) : i < t.length := by
  have hlt := h.run.lt
  have hle := h.run.le_length
  omega

/-- Only whether a word character stands before a text counts. -/
theorem behindLastFrom?_congr {before before' : Option Char} (h : isEdge before = isEdge before')
    (u : Text) : behindLastFrom? before u = behindLastFrom? before' u := by
  cases u with
  | nil => rfl
  | cons c u =>
    by_cases hc : c = '\n'
    · rw [behindLastFrom?, behindLastFrom?, if_pos hc, if_pos hc]
    · rw [behindLastFrom?_cons hc, behindLastFrom?_cons hc, Text.behindWord?_congr h]

/-- **The last FROM**: what is found from a place on is the last one before the next line feed, and
    if nothing is found, there is none. -/
theorem behindLastFrom?_spec (t : Text) (i : Nat) :
    match behindLastFrom? (before? t i) (t.drop i) with
    | none => ∀ k, ¬ FromAhead t i k
    | some rest => ∃ k, IsGreatest {k | FromAhead t i k} k ∧
        rest = t.drop (k + fromWord.length) := by
  induction hu : t.drop i generalizing i with
  | nil =>
    intro k h
    have hlen := List.drop_eq_nil_iff.mp hu
    have hlt := lt_length_of_wordAt h.word
    have hle := h.le
    omega
  | cons c u ih =>
    obtain ⟨hc, hdrop⟩ := Text.getElem?_of_drop hu
    by_cases hfeed : c = '\n'
    · subst hfeed
      rw [behindLastFrom?, if_pos rfl]
      intro k h
      rcases fromAhead_iff.mp h with ⟨rfl, hword⟩ | ⟨hne, -⟩
      · exact hword.run.ne_of_not_isWord (by decide) (Nat.le_refl _) hword.run.lt hc
      · exact hne hc
    · have hhere : t[i]? ≠ some '\n' := by
        rw [hc]
        exact fun h => hfeed (Option.some.inj h)
      have hnext := ih (i + 1) hdrop
      rw [Text.before?_succ, hc] at hnext
      rw [behindLastFrom?_cons hfeed]
      cases hrest : behindLastFrom? (some c) u with
      | some rest =>
        -- a later one is the last
        rw [hrest] at hnext
        obtain ⟨k, ⟨hk, hlast⟩, rfl⟩ := hnext
        have hle := hk.le
        refine ⟨k, ⟨fromAhead_iff.mpr (.inr ⟨hhere, hk⟩), fun l hl => ?_⟩, rfl⟩
        rcases fromAhead_iff.mp hl with ⟨rfl, -⟩ | ⟨-, hl⟩
        · omega
        · exact hlast hl
      | none =>
        rw [hrest] at hnext
        rw [Option.none_or, ← hu]
        cases hword : Text.behindWord? .anyCase fromWord (before? t i) (t.drop i) with
        | some rest =>
          obtain ⟨hi, rfl⟩ := (Text.behindWord?_drop_iff lettered_fromWord).mp hword
          refine ⟨i, ⟨fromAhead_iff.mpr (.inl ⟨rfl, hi⟩), fun l hl => ?_⟩, rfl⟩
          rcases fromAhead_iff.mp hl with ⟨rfl, -⟩ | ⟨-, hl⟩
          · exact Nat.le_refl _
          · exact absurd hl (hnext l)
        | none =>
          intro k h
          rcases fromAhead_iff.mp h with ⟨rfl, hi⟩ | ⟨-, hk⟩
          · rw [(Text.behindWord?_drop_iff lettered_fromWord).mpr ⟨hi, rfl⟩] at hword
            cases hword
          · exact hnext k hk

/-! ## 3. Where a query ends -/

theorem stopsAt_dropWhile {t : Text} {i : Nat} (hi : i ≤ t.length) :
    StopsAt t i (t.length - ((t.drop i).dropWhile (· ≠ ';')).length) := by
  obtain ⟨u, hu⟩ : ∃ u, u = (t.drop i).takeWhile (· ≠ ';') := ⟨_, rfl⟩
  obtain ⟨v, hv⟩ : ∃ v, v = (t.drop i).dropWhile (· ≠ ';') := ⟨_, rfl⟩
  have hsplit : t.drop i = u ++ v := by
    rw [hu, hv]
    exact List.takeWhile_append_dropWhile.symm
  have hlen := congrArg List.length hsplit
  rw [List.length_append, List.length_drop] at hlen
  have hget : ∀ m, t[i + m]? = (u ++ v)[m]? := by
    intro m
    rw [← hsplit, List.getElem?_drop]
  rw [← hv]
  refine ⟨by omega, by omega, fun j hij hje hsemi => ?_, fun he => ?_⟩
  · have hj := hget (j - i)
    rw [show i + (j - i) = j by omega, List.getElem?_append_left (by omega), hsemi] at hj
    have hmem : ';' ∈ u := List.mem_of_getElem? hj.symm
    rw [hu] at hmem
    simpa using List.mem_takeWhile_imp hmem
  · have hj := hget u.length
    rw [List.getElem?_append_right (Nat.le_refl _), Nat.sub_self, ← List.head?_eq_getElem?] at hj
    rw [show t.length - v.length = i + u.length by omega, hj]
    cases hc : v with
    | nil =>
      rw [hc, List.length_nil] at he
      omega
    | cons c v' =>
      have hhead := List.head?_dropWhile_not (· ≠ ';') (t.drop i)
      rw [← hv, hc] at hhead
      simpa using hhead

theorem StopsAt.unique {t : Text} {i e e' : Nat} (h : StopsAt t i e) (h' : StopsAt t i e') :
    e = e' := by
  have hle : ∀ {e e'}, StopsAt t i e → StopsAt t i e' → ¬ e < e' := by
    intro e e' h h' hlt
    have hinside := h'.inside
    exact h'.none_before e h.le hlt (h.semicolon (by omega))
  have h1 := hle h h'
  have h2 := hle h' h
  omega

/-- No word goes on where a semicolon or the end of the text is. -/
theorem StopsAt.edge_behind {t : Text} {i e : Nat} (h : StopsAt t i e) : isEdge t[e]? = true := by
  rcases Nat.eq_or_lt_of_le h.inside with rfl | hlt
  · rw [List.getElem?_eq_none (Nat.le_refl _)]
    rfl
  · rw [h.semicolon hlt]
    decide

namespace Spans

variable {t : Text} {s e : Nat}

theorem opensAt (h : Spans t s e) : Opens t s := by
  obtain ⟨k, ⟨hk, -⟩, -⟩ := h.stops
  exact ⟨h.opens, k, hk⟩

theorem lt (h : Spans t s e) : s < e := by
  obtain ⟨k, ⟨hk, -⟩, hstop⟩ := h.stops
  have hle := hk.le
  have hstop' := hstop.le
  have hpos : 0 < fromWord.length := by decide
  omega

theorem le_length (h : Spans t s e) : e ≤ t.length := by
  obtain ⟨k, -, hstop⟩ := h.stops
  exact hstop.inside

/-- No word goes on where a query ends. -/
theorem edge_behind (h : Spans t s e) : isEdge t[e]? = true := by
  obtain ⟨k, -, hstop⟩ := h.stops
  exact hstop.edge_behind

theorem unique {e' : Nat} (h : Spans t s e) (h' : Spans t s e') : e = e' := by
  obtain ⟨k, hk, hstop⟩ := h.stops
  obtain ⟨k', hk', hstop'⟩ := h'.stops
  obtain rfl : k = k' := hk.unique hk'
  exact hstop.unique hstop'

end Spans

/-- The search goes on further down. -/
theorem Next.lt {t : Text} {p s e : Nat} (h : Next t p s e) : p < e := by
  have hle : p ≤ s := h.least.1.1
  have hlt := h.spans.lt
  omega

theorem Next.unique {t : Text} {p s e s' e' : Nat} (h : Next t p s e) (h' : Next t p s' e') :
    s = s' ∧ e = e' := by
  obtain rfl : s = s' := h.least.unique h'.least
  exact ⟨rfl, h.spans.unique h'.spans⟩

/-- **The query at a place**: what is found goes from there to its end, and if nothing is found, no
    query opens there. -/
theorem queryAt?_spec (t : Text) (s : Nat) :
    match queryAt? (before? t s) (t.drop s) with
    | none => ¬ Opens t s
    | some body => ∃ e, Spans t s e ∧ body = t.extract s e := by
  unfold queryAt?
  cases hfind : Text.behindWord? .anyCase findWord (before? t s) (t.drop s) with
  | none =>
    rintro ⟨hword, -⟩
    rw [(Text.behindWord?_drop_iff lettered_findWord).mpr ⟨hword, rfl⟩] at hfind
    cases hfind
  | some rest =>
    obtain ⟨hword, rfl⟩ := (Text.behindWord?_drop_iff lettered_findWord).mp hfind
    -- the letter before the rest is the last one of the word, in whatever case
    have hlast : isEdge findWord.getLast? = isEdge (before? t (s + findWord.length)) := by
      obtain ⟨c, hc, hcword⟩ := hword.run.word (s + 3) (by omega) (Nat.lt_succ_self _)
      have hD : isEdge findWord.getLast? = false := by decide
      have hd : isEdge (before? t (s + findWord.length)) = !isWord c := by
        show isEdge t[s + 3]? = !isWord c
        rw [hc, isEdge_some]
      rw [hD, hd, hcword]
      rfl
    have hfrom := behindLastFrom?_spec t (s + findWord.length)
    rw [← behindLastFrom?_congr hlast] at hfrom
    cases hrest : behindLastFrom? findWord.getLast? (t.drop (s + findWord.length)) with
    | none =>
      rw [hrest] at hfrom
      simp only [hrest]
      rintro ⟨-, k, hk⟩
      exact hfrom k hk
    | some rest =>
      rw [hrest] at hfrom
      simp only [hrest]
      obtain ⟨k, hk, rfl⟩ := hfrom
      have hstop := stopsAt_dropWhile hk.1.word.run.le_length
      have hspans : Spans t s _ := ⟨hword, k, hk, hstop⟩
      refine ⟨_, hspans, ?_⟩
      show (t.drop s).take _ = (t.drop s).take _
      rw [List.length_drop]
      congr 1
      omega

/-! ## 4. The queries from a place on -/

/-- The queries that the search finds from a place on. -/
def queriesBehind (t : Text) (p : Nat) : List Query :=
  queriesFrom 0 (Text.size (t.take p)) (before? t p) (t.drop p)

theorem size_take_succ {t : Text} {p : Nat} {c : Char} (h : t[p]? = some c) :
    Text.size (t.take (p + 1)) = Text.size (t.take p) + bytesOf c := by
  rw [List.take_add_one, h, Option.toList_some, Text.size_append]
  rfl

/-- The search goes on behind what is skipped. -/
theorem queriesFrom_skip (t : Text) (k : Nat) : ∀ {p : Nat}, p + k ≤ t.length →
    queriesFrom k (Text.size (t.take p)) (before? t p) (t.drop p) = queriesBehind t (p + k) := by
  induction k with
  | zero => exact fun _ => rfl
  | succ k ih =>
    intro p hle
    have hu := List.drop_eq_getElem_cons (show p < t.length by omega)
    obtain ⟨hc, -⟩ := Text.getElem?_of_drop hu
    rw [hu, queriesFrom, ← size_take_succ hc, ← hc, ← Text.before?_succ, ih (by omega)]
    congr 1
    omega

theorem queriesBehind_of_not_opens {t : Text} {p : Nat} (hp : p < t.length) (h : ¬ Opens t p) :
    queriesBehind t p = queriesBehind t (p + 1) := by
  have hu := List.drop_eq_getElem_cons hp
  obtain ⟨hc, -⟩ := Text.getElem?_of_drop hu
  have hspec := queryAt?_spec t p
  cases hquery : queryAt? (before? t p) (t.drop p) with
  | some body =>
    rw [hquery] at hspec
    obtain ⟨e, hspans, -⟩ := hspec
    exact absurd hspans.opensAt h
  | none =>
    rw [hu] at hquery
    rw [queriesBehind, hu, queriesFrom_cons_of_none hquery, ← size_take_succ hc, ← hc]
    rfl

theorem queriesBehind_of_spans {t : Text} {s e : Nat} (h : Spans t s e) :
    queriesBehind t s = ⟨Text.size (t.take s), t.extract s e⟩ :: queriesBehind t e := by
  have hlt := h.lt
  have hle := h.le_length
  have hu := List.drop_eq_getElem_cons (show s < t.length by omega)
  obtain ⟨hc, -⟩ := Text.getElem?_of_drop hu
  have hspec := queryAt?_spec t s
  cases hquery : queryAt? (before? t s) (t.drop s) with
  | none =>
    rw [hquery] at hspec
    exact absurd h.opensAt hspec
  | some body =>
    rw [hquery] at hspec
    obtain ⟨e', hspans, rfl⟩ := hspec
    obtain rfl : e = e' := h.unique hspans
    have hlen : (t.extract s e).length - 1 = e - (s + 1) := by
      rw [List.extract_eq_take_drop, List.length_take, List.length_drop]
      omega
    have hskip := queriesFrom_skip t (e - (s + 1)) (p := s + 1) (by omega)
    rw [show s + 1 + (e - (s + 1)) = e by omega] at hskip
    rw [hu] at hquery
    rw [queriesBehind, hu, queriesFrom, hquery, ← hskip, ← hlen, size_take_succ hc,
      Text.before?_succ, hc]

/-- **What the search finds from a place on**: the first query that opens there or further on, and
    what it finds where this one ends; or nothing, and then none opens any more. -/
theorem queriesBehind_cases (t : Text) (p : Nat) :
    (queriesBehind t p = [] ∧ ∀ s, p ≤ s → ¬ Opens t s) ∨
    ∃ s e, Next t p s e ∧
      queriesBehind t p = ⟨Text.size (t.take s), t.extract s e⟩ :: queriesBehind t e := by
  induction hu : t.drop p generalizing p with
  | nil =>
    refine .inl ⟨by rw [queriesBehind, hu, queriesFrom], fun s hps hs => ?_⟩
    have hlen := List.drop_eq_nil_iff.mp hu
    have hlt := lt_length_of_wordAt hs.1
    omega
  | cons c u ih =>
    obtain ⟨hc, hdrop⟩ := Text.getElem?_of_drop hu
    obtain ⟨hp, -⟩ := List.getElem?_eq_some_iff.mp hc
    have hspec := queryAt?_spec t p
    cases hquery : queryAt? (before? t p) (t.drop p) with
    | some body =>
      rw [hquery] at hspec
      obtain ⟨e, hspans, -⟩ := hspec
      exact .inr ⟨p, e, ⟨⟨⟨Nat.le_refl p, hspans.opensAt⟩, fun r hr => hr.1⟩, hspans⟩,
        queriesBehind_of_spans hspans⟩
    | none =>
      rw [hquery] at hspec
      have hlater : ∀ s, p ≤ s → Opens t s → p + 1 ≤ s := by
        intro s hps hs
        rcases Nat.eq_or_lt_of_le hps with rfl | hlt
        · exact absurd hs hspec
        · exact hlt
      rw [queriesBehind_of_not_opens hp hspec]
      rcases ih (p + 1) hdrop with ⟨hnil, hnone⟩ | ⟨s, e, hnext, hqueries⟩
      · exact .inl ⟨hnil, fun s hps hs => hnone s (hlater s hps hs) hs⟩
      · obtain ⟨⟨⟨hps, hs⟩, hleast⟩, hspans⟩ := hnext
        exact .inr ⟨s, e, ⟨⟨⟨by omega, hs⟩, fun r hr => hleast ⟨hlater r hr.1 hr.2, hr.2⟩⟩, hspans⟩,
          hqueries⟩

/-- The first query that opens at or behind a place is the first one that the search finds. -/
theorem queriesBehind_of_next {t : Text} {p s e : Nat} (h : Next t p s e) :
    queriesBehind t p = ⟨Text.size (t.take s), t.extract s e⟩ :: queriesBehind t e := by
  rcases queriesBehind_cases t p with ⟨-, hnone⟩ | ⟨s', e', h', hqueries⟩
  · exact absurd h.spans.opensAt (hnone s h.least.1.1)
  · obtain ⟨rfl, rfl⟩ := h.unique h'
    exact hqueries

/-- **Induction along the search**: what holds where no query opens any more, and at a place if it
    holds where the next query ends, holds everywhere. -/
@[elab_as_elim]
theorem search_induction {t : Text} {motive : Nat → Prop}
    (done : ∀ p, queriesBehind t p = [] → (∀ s, p ≤ s → ¬ Opens t s) → motive p)
    (query : ∀ p s e, Next t p s e →
      queriesBehind t p = ⟨Text.size (t.take s), t.extract s e⟩ :: queriesBehind t e →
      motive e → motive p)
    (p : Nat) : motive p := by
  -- the search goes on where a query ends, so less of the text is left
  induction hn : t.length - p using Nat.strong_induction_on generalizing p with
  | _ n ih =>
    rcases queriesBehind_cases t p with ⟨hnil, hnone⟩ | ⟨s, e, hnext, hqueries⟩
    · exact done p hnil hnone
    · have hlt := hnext.lt
      have hle := hnext.spans.le_length
      exact query p s e hnext hqueries (ih (t.length - e) (by omega) e rfl)

/-! ## 5. The hints from a place on -/

/-- The hints for those of some queries that have no filter. -/
def hints (t : Text) (qs : List Query) : List Diagnostic :=
  (qs.filter fun q => !q.isFiltered).map (Query.hint t)

theorem hints_cons_of_filtered {t : Text} {q : Query} (h : q.isFiltered = true) (qs : List Query) :
    hints t (q :: qs) = hints t qs := by
  simp [hints, h]

theorem hints_cons_of_not_filtered {t : Text} {q : Query} (h : ¬ q.isFiltered = true)
    (qs : List Query) : hints t (q :: qs) = q.hint t :: hints t qs := by
  simp [hints, h]

/-- A filter is found in a part that is cut out between words exactly if a run in it spells one of
    the words. -/
theorem holdsWord_extract_iff {t : Text} {s e : Nat} (hs : isEdge (before? t s) = true)
    (he : isEdge t[e]? = true) :
    Text.holdsWord .anyCase filterWords none (t.extract s e) = true ↔ Filtered t s e := by
  have hholds :=
    @Text.holdsWord_drop_iff .anyCase filterWords (t.extract s e) 0 lettered_filterWords
  rw [List.drop_zero, Text.before?_zero] at hholds
  rw [hholds]
  constructor
  · rintro ⟨k, -, w, hw, hk⟩
    obtain ⟨hword, hle⟩ := (Text.wordAt_extract_iff hs he).mp hk
    exact ⟨w, hw, s + k, by omega, hle, hword⟩
  · rintro ⟨w, hw, i, hsi, hle, hword⟩
    refine ⟨i - s, Nat.zero_le _, w, hw, (Text.wordAt_extract_iff hs he).mpr ?_⟩
    rw [show s + (i - s) = i by omega]
    exact ⟨hword, hle⟩

/-- A query has a filter if a run in it spells one of the words. -/
theorem isFiltered_iff {t : Text} {s e : Nat} (h : Spans t s e) (offset : Nat) :
    (⟨offset, t.extract s e⟩ : Query).isFiltered = true ↔ Filtered t s e :=
  holdsWord_extract_iff h.opens.run.edge_before h.edge_behind

/-- A word does not begin inside a line break. -/
theorem not_severs_of_wordAt {letters : Letters} {word t : Text} {s : Nat}
    (h : WordAt letters word t s) : ¬ Severs (t.take s) (t.drop s) := by
  rintro ⟨-, hhead⟩
  rw [List.head?_drop] at hhead
  exact h.run.ne_of_not_isWord (by decide) (Nat.le_refl s) h.run.lt hhead

/-- The line of the byte at which a word begins. -/
theorem lineAtByte_of_wordAt {letters : Letters} {word t : Text} {s : Nat}
    (h : WordAt letters word t s) :
    Text.lineAtByte t (Text.size (t.take s)) = (place (t.take s)).line := by
  have hadd := Text.lineAtByte_append_add (t.take s) (t.drop s) 0 (not_severs_of_wordAt h)
  rw [List.take_append_drop, Text.lineAtByte.eq_1] at hadd
  exact hadd

/-- The hint for a query is about the line on which it opens, from end to end. -/
theorem exists_hint_eq {t : Text} {s e : Nat} (h : Spans t s e) :
    ∃ i line, OnLine t s i ∧ (Text.lines t)[i]? = some line ∧
      Query.hint t ⟨Text.size (t.take s), t.extract s e⟩ =
        .ofLine .information .missingFilter missingFilterMessage i (Text.width line) := by
  have hbyte := lineAtByte_of_wordAt h.opens
  have hlt := Text.lineAtByte_lt t (Text.size (t.take s))
  rw [hbyte] at hlt
  have hline := List.getElem?_eq_getElem hlt
  refine ⟨_, _, Document.onLine_place (lt_length_of_wordAt h.opens) (not_severs_of_wordAt h.opens),
    hline, ?_⟩
  rw [Query.hint, hbyte, Text.lineWidth_eq hline, missingFilter]

/-- **The search gives the hints from a place on.** -/
theorem hinted_hints (t : Text) (p : Nat) : Hinted t p (hints t (queriesBehind t p)) := by
  induction p using search_induction (t := t) with
  | done p hnil hnone =>
    rw [hnil]
    exact .done hnone
  | query p s e hnext hqueries ih =>
    have hfiltered := isFiltered_iff hnext.spans (Text.size (t.take s))
    rw [hqueries]
    by_cases hf : Filtered t s e
    · rw [hints_cons_of_filtered (hfiltered.mpr hf)]
      exact .filtered hnext hf ih
    · obtain ⟨i, line, hi, hline, hhint⟩ := exists_hint_eq hnext.spans
      rw [hints_cons_of_not_filtered (fun h => hf (hfiltered.mp h)), hhint]
      exact .hint hnext hf hi hline ih

/-- There are no other hints. -/
theorem Hinted.eq_hints {t : Text} {p : Nat} {ds : List Diagnostic} (h : Hinted t p ds) :
    ds = hints t (queriesBehind t p) := by
  induction h with
  | @done p hnone =>
    rcases queriesBehind_cases t p with ⟨hnil, -⟩ | ⟨s, e, hnext, -⟩
    · rw [hnil]
      rfl
    · exact absurd hnext.least.1.2 (hnone s hnext.least.1.1)
  | filtered hnext hf _ ih =>
    rw [queriesBehind_of_next hnext,
      hints_cons_of_filtered ((isFiltered_iff hnext.spans _).mpr hf), ih]
  | hint hnext hf hi hline _ ih =>
    obtain ⟨i', line', hi', hline', hhint⟩ := exists_hint_eq hnext.spans
    obtain rfl := hi.unique hi'
    rw [hline] at hline'
    obtain rfl := Option.some.inj hline'
    rw [queriesBehind_of_next hnext,
      hints_cons_of_not_filtered (fun h => hf ((isFiltered_iff hnext.spans _).mp h)), hhint, ih]

theorem hinted_iff {t : Text} {p : Nat} {ds : List Diagnostic} :
    Hinted t p ds ↔ ds = hints t (queriesBehind t p) :=
  ⟨Hinted.eq_hints, fun h => h ▸ hinted_hints t p⟩

/-! ## 6. One hint for each line -/

/-- **No two queries open on one line**: between a query and one that opens behind it there is a
    line feed, for else the first one would have gone on to the last FROM of the second one. -/
theorem exists_lineFeed_between {t : Text} {s e r : Nat} (h : Spans t s e) (hr : Opens t r)
    (her : e ≤ r) : ∃ j, s ≤ j ∧ j < r ∧ t[j]? = some '\n' := by
  by_contra hnone
  push Not at hnone
  obtain ⟨k, ⟨hk, hlast⟩, hstop⟩ := h.stops
  obtain ⟨hword, k', hk'⟩ := hr
  have hk'le := hk'.le
  have hstople := hstop.le
  have hkle := hk.le
  have hahead : FromAhead t (s + findWord.length) k' := by
    refine ⟨by omega, hk'.word, fun j hsj hjk => ?_⟩
    rcases Nat.lt_or_ge j r with hjr | hjr
    · exact hnone j (by omega) hjr
    · rcases Nat.lt_or_ge j (r + findWord.length) with hin | hbehind
      · exact hword.run.ne_of_not_isWord (by decide) hjr hin
      · exact hk'.same_line j hbehind hjk
  have hle := hlast hahead
  have hpos : 0 < fromWord.length := by decide
  omega

/-- **The lines of the hints from a place on** are those of queries that open there or further on,
    and they increase; the hints give them in 32 bits. -/
theorem Hinted.exists_lines {t : Text} {p : Nat} {ds : List Diagnostic} (h : Hinted t p ds) :
    ∃ is : List Nat, (ds.map fun d => d.range.start.line) = is.map low32 ∧ is.Pairwise (· < ·) ∧
      ∀ i ∈ is, i < (Text.lines t).length ∧ ∃ s, p ≤ s ∧ Opens t s ∧ OnLine t s i := by
  induction h with
  | done => exact ⟨[], rfl, .nil, fun i hi => absurd hi List.not_mem_nil⟩
  | filtered hnext _ _ ih =>
    obtain ⟨is, hlines, hincrease, hopens⟩ := ih
    have hlt := hnext.lt
    refine ⟨is, hlines, hincrease, fun i hi => ?_⟩
    obtain ⟨hi, r, her, hr⟩ := hopens i hi
    exact ⟨hi, r, by omega, hr⟩
  | @hint p s e i line ds hnext _ hi hline _ ih =>
    obtain ⟨is, hlines, hincrease, hopens⟩ := ih
    have hlt := hnext.lt
    refine ⟨i :: is, congrArg (low32 i :: ·) hlines, ?_, fun j hj => ?_⟩
    · refine List.pairwise_cons.mpr ⟨fun j hj => ?_, hincrease⟩
      obtain ⟨-, r, her, hr, hjline⟩ := hopens j hj
      obtain ⟨k, hsk, hkr, hfeed⟩ := exists_lineFeed_between hnext.spans hr her
      exact hi.lt_of_lineFeed hjline (not_severs_of_wordAt hnext.spans.opens)
        (not_severs_of_wordAt hr.1) (lt_length_of_wordAt hr.1) hsk hkr hfeed
    · rcases List.mem_cons.mp hj with rfl | hj
      · exact ⟨(List.getElem?_eq_some_iff.mp hline).1, s, hnext.least.1.1, hnext.spans.opensAt, hi⟩
      · obtain ⟨hj, r, her, hr⟩ := hopens j hj
        exact ⟨hj, r, by omega, hr⟩

/-- **The hints about queries, said of the text as a whole.** They are those that come about from
    the start of the text on: for the first query that opens, for the first one that opens where
    this one ends, and so on, each on its line from end to end unless a word in it filters. So the
    lines of the hints increase, and no line has two; the hints themselves say so as long as the
    lines can be counted in 32 bits. -/
theorem queryFindings_closed_form (t : Text) :
    (∀ ds, Hinted t 0 ds ↔ ds = queryFindings t) ∧
    (∃ is : List Nat, ((queryFindings t).map fun d => d.range.start.line) = is.map low32 ∧
      is.Pairwise (· < ·) ∧ ∀ i ∈ is, i < (Text.lines t).length) ∧
    ((Text.lines t).length ≤ 4294967296 →
      ((queryFindings t).map fun d => d.range.start.line).Pairwise (· < ·)) := by
  have heq : queryFindings t = hints t (queriesBehind t 0) := queryFindings_eq t
  rw [heq]
  obtain ⟨is, hlines, hincrease, hopens⟩ := (hinted_hints t 0).exists_lines
  refine ⟨fun ds => hinted_iff, ⟨is, hlines, hincrease, fun i hi => (hopens i hi).1⟩,
    fun hlen => ?_⟩
  have hcut : is.map low32 = is := by
    refine (List.map_congr_left fun i hi => ?_).trans (List.map_id is)
    exact low32_eq_self (Nat.lt_of_lt_of_le (hopens i hi).1 hlen)
  rw [hlines, hcut]
  exact hincrease

/-- A lone carriage return ends a line but not the search for FROM, FINDS is another word, and the
    word that filters may stand on a later line. -/
theorem queryFindings_closed_form_across_return :
    let t := "find x\rFROM a FIND y from b;\nFINDS z FROM c\n; Find w From d\n".toList ++
      "When 1;\nFIND 😀 FROM é".toList
    Hinted t 0 [missingFilter 0 6, missingFilter 5 14] ∧ (Text.lines t).length ≤ 4294967296 ∧
    ((queryFindings t).map fun d => d.range.start.line).Pairwise (· < ·) := by
  intro t
  have hfindings : queryFindings t = [missingFilter 0 6, missingFilter 5 14] := by decide +kernel
  have hlen : (Text.lines t).length ≤ 4294967296 := by decide +kernel
  obtain ⟨hclosed, -, hincrease⟩ := queryFindings_closed_form t
  exact ⟨(hclosed _).mpr hfindings.symm, hlen, hincrease hlen⟩

end Nsql.Scan
