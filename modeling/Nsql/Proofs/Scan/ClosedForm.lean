/-
  File:      Nsql/Proofs/Scan/ClosedForm.lean
  Subject:   The line checks, said of each line by itself.

  The checks go through the lines once and carry a statement with them. What they find on a line
  can be said without the way they went: a line is warned about if it is the last one that counts
  and the lines since the last terminated one hold a word that begins a query (`LeftOpenAt`), and
  a string is left open on it if it counts and has an odd number of quotes.

  * `asksBefore_succ` -- what one line does to the statement that is being collected;
  * `lastSignificant?_eq_some_iff` -- which line is the last one that counts;
  * `pass_eq_flatMap` -- the checks from any line on;
  * **`lineFindings_closed_form`** -- all findings, line by line.
-/
import Mathlib.Data.List.Perm.Subperm
import Nsql.Proofs.Scan.LinePass

namespace Nsql.Scan

/-! ## 1. Lines of a text -/

/-- Whether line `i` counts and is as `p` says. -/
def lineIs (p : Text → Bool) (ls : List Text) (i : Nat) : Bool :=
  ls[i]?.any fun line => isSignificant line && p line

/-- Whether line `i` counts. -/
def countsAt (ls : List Text) (i : Nat) : Bool := lineIs (fun _ => true) ls i

/-- Whether line `i` counts and ends a statement. -/
def endsAt (ls : List Text) (i : Nat) : Bool :=
  lineIs (fun line => endsStatement (Text.trimEdges line)) ls i

/-- Whether line `i` counts and holds a word that begins a query. -/
def asksAt (ls : List Text) (i : Nat) : Bool := lineIs holdsQueryWord ls i

/-- **A statement is left open on line `i`**: no line behind it counts, it does not end a
    statement, and a word that begins a query stands on it or on a line before it from which on
    no line ends a statement. -/
def LeftOpenAt (ls : List Text) (i : Nat) : Prop :=
  countsAt ls i = true ∧ (∀ j < ls.length, i < j → countsAt ls j = false) ∧
    endsAt ls i = false ∧
    ∃ j ≤ i, asksAt ls j = true ∧ ∀ k ≤ i, j ≤ k → endsAt ls k = false

instance (ls : List Text) (i : Nat) : Decidable (LeftOpenAt ls i) :=
  inferInstanceAs (Decidable (_ ∧ _ ∧ _ ∧ _))

section Line

variable {p : Text → Bool} {ls : List Text} {line : Text} {i : Nat}

theorem lineIs_eq (h : ls[i]? = some line) : lineIs p ls i = (isSignificant line && p line) := by
  rw [lineIs, h, Option.any_some]

/-- There is nothing to say of a line that a text does not have. -/
theorem lineIs_of_length_le (h : ls.length ≤ i) : lineIs p ls i = false := by
  rw [lineIs, List.getElem?_eq_none h, Option.any_none]

theorem countsAt_eq (h : ls[i]? = some line) : countsAt ls i = isSignificant line := by
  rw [countsAt, lineIs_eq h, Bool.and_true]

end Line

/-! ## 2. What is collected before a line -/

/-- A word that begins a query stands before line `i` in the statement that is being collected
    there. -/
def AsksBefore (ls : List Text) (i : Nat) : Prop :=
  ∃ j < i, asksAt ls j = true ∧ ∀ k < i, j ≤ k → endsAt ls k = false

theorem not_asksBefore_zero (ls : List Text) : ¬ AsksBefore ls 0 := by
  rintro ⟨j, hj, -⟩
  exact Nat.not_lt_zero j hj

/-- **One more line**: it may bring the word itself, and nothing is left of a statement that it
    ends. -/
theorem asksBefore_succ (ls : List Text) (i : Nat) :
    AsksBefore ls (i + 1) ↔ (AsksBefore ls i ∨ asksAt ls i = true) ∧ endsAt ls i = false := by
  constructor
  · rintro ⟨j, hj, hask, hnone⟩
    refine ⟨?_, hnone i (Nat.lt_succ_self i) (Nat.le_of_lt_succ hj)⟩
    by_cases hji : j = i
    · exact .inr (hji ▸ hask)
    · exact .inl ⟨j, by omega, hask, fun k hk hjk => hnone k (by omega) hjk⟩
  · rintro ⟨⟨j, hj, hask, hnone⟩ | hask, hend⟩
    · refine ⟨j, by omega, hask, fun k hk hjk => ?_⟩
      by_cases hki : k = i
      · exact hki ▸ hend
      · exact hnone k (by omega) hjk
    · refine ⟨i, Nat.lt_succ_self i, hask, fun k hk hik => ?_⟩
      have hki : k = i := by omega
      exact hki ▸ hend

/-- A line that does not count changes nothing. -/
theorem asksBefore_succ_of_insignificant {ls : List Text} {i : Nat} {line : Text}
    (hline : ls[i]? = some line) (h : isSignificant line = false) :
    AsksBefore ls (i + 1) ↔ AsksBefore ls i := by
  have hask : asksAt ls i = false := by rw [asksAt, lineIs_eq hline, h, Bool.false_and]
  have hend : endsAt ls i = false := by rw [endsAt, lineIs_eq hline, h, Bool.false_and]
  rw [asksBefore_succ, hask, hend]
  simp

/-- A line that counts, and what is collected behind it. -/
theorem asksBefore_succ_of_significant {ls : List Text} {i : Nat} {line : Text}
    (hline : ls[i]? = some line) (h : isSignificant line = true) :
    AsksBefore ls (i + 1) ↔ (AsksBefore ls i ∨ holdsQueryWord line = true) ∧
      endsStatement (Text.trimEdges line) = false := by
  have hask : asksAt ls i = holdsQueryWord line := by
    rw [asksAt, lineIs_eq hline, h, Bool.true_and]
  have hend : endsAt ls i = endsStatement (Text.trimEdges line) := by
    rw [endsAt, lineIs_eq hline, h, Bool.true_and]
  rw [asksBefore_succ, hask, hend]

/-! ## 3. The last line that counts -/

/-- No line behind line `i` counts, and line `i` does. -/
def LastAt (ls : List Text) (i : Nat) : Prop :=
  countsAt ls i = true ∧ ∀ j, i < j → countsAt ls j = false

theorem lastAt_succ (line : Text) (ls : List Text) (i : Nat) :
    LastAt (line :: ls) (i + 1) ↔ LastAt ls i := by
  refine and_congr Iff.rfl ⟨fun h j hj => h (j + 1) (by omega), fun h j hj => ?_⟩
  obtain ⟨j, rfl⟩ := Nat.exists_eq_succ_of_ne_zero (Nat.ne_zero_of_lt hj)
  exact h j (by omega)

theorem lastAt_zero (line : Text) (ls : List Text) :
    LastAt (line :: ls) 0 ↔ isSignificant line = true ∧ ∀ j, countsAt ls j = false := by
  have hfirst : countsAt (line :: ls) 0 = isSignificant line := countsAt_eq rfl
  rw [LastAt, hfirst]
  refine and_congr Iff.rfl ⟨fun h j => h (j + 1) (Nat.succ_pos j), fun h j hj => ?_⟩
  obtain ⟨j, rfl⟩ := Nat.exists_eq_succ_of_ne_zero (Nat.ne_zero_of_lt hj)
  exact h j

/-- **Which line is the last one that counts.** -/
theorem lastSignificant?_eq_some_iff (ls : List Text) :
    ∀ i, lastSignificant? 0 ls = some i ↔ LastAt ls i := by
  induction ls with
  | nil =>
    intro i
    have hno : countsAt [] i = false := lineIs_of_length_le (Nat.zero_le i)
    simp [lastSignificant?, LastAt, hno]
  | cons line ls ih =>
    intro i
    have hshift := lastSignificant?_shift 1 ls 0
    rw [Nat.zero_add] at hshift
    rw [lastSignificant?, Nat.zero_add, hshift]
    cases hrest : lastSignificant? 0 ls with
    | some m =>
      rw [hrest] at ih
      cases i with
      | zero =>
        -- a line further down counts
        rw [lastAt_zero]
        refine iff_of_false (by simp) fun h => ?_
        have hyes := ((ih m).mp rfl).1
        rw [h.2 m] at hyes
        cases hyes
      | succ i =>
        rw [lastAt_succ, ← ih i]
        simp
    | none =>
      have hnone := lastSignificant?_eq_none hrest
      have hno : ∀ j, countsAt ls j = false := by
        intro j
        cases hj : ls[j]? with
        | none => exact lineIs_of_length_le (List.getElem?_eq_none_iff.mp hj)
        | some l => rw [countsAt_eq hj, hnone l (List.mem_of_getElem? hj)]
      cases i with
      | zero =>
        rw [lastAt_zero]
        simp [hno]
      | succ i =>
        rw [lastAt_succ, ← ih i, hrest]
        simp

/-- A statement that is left open is left open on the last line that counts. -/
theorem leftOpenAt_iff {ls : List Text} {i : Nat} :
    LeftOpenAt ls i ↔ LastAt ls i ∧ AsksBefore ls (i + 1) := by
  constructor
  · rintro ⟨hcounts, hbehind, hend, j, hj, hask, hnone⟩
    refine ⟨⟨hcounts, fun k hk => ?_⟩, j, by omega, hask, fun k hk => hnone k (by omega)⟩
    by_cases hlt : k < ls.length
    · exact hbehind k hlt hk
    · exact lineIs_of_length_le (by omega)
  · rintro ⟨⟨hcounts, hbehind⟩, j, hj, hask, hnone⟩
    exact ⟨hcounts, fun k _ hk => hbehind k hk, hnone i (by omega) (by omega), j, by omega, hask,
      fun k hk => hnone k (by omega)⟩

/-- At most one line has a statement that is left open. -/
theorem LeftOpenAt.unique {ls : List Text} {i j : Nat} (hi : LeftOpenAt ls i)
    (hj : LeftOpenAt ls j) : i = j := by
  obtain ⟨⟨hci, hbi⟩, -⟩ := leftOpenAt_iff.mp hi
  obtain ⟨⟨hcj, hbj⟩, -⟩ := leftOpenAt_iff.mp hj
  rcases Nat.lt_trichotomy i j with hlt | heq | hgt
  · rw [hbi j hlt] at hcj
    cases hcj
  · exact heq
  · rw [hbj i hgt] at hci
    cases hci

/-! ## 4. The findings of a line -/

/-- What the line checks find on line `i`, which reads `line`. -/
def findingsOn (ls : List Text) (line : Text) (i : Nat) : List Diagnostic :=
  (if LeftOpenAt ls i then [missingTerminator i (Text.width line)] else []) ++
    (if isSignificant line = true ∧ line.count '"' % 2 = 1 then [unclosedString i (Text.width line)]
      else [])

section FindingsOn

variable {ls : List Text} {line : Text} {i : Nat}

theorem findingsOn_of_insignificant (hline : ls[i]? = some line)
    (h : isSignificant line = false) : findingsOn ls line i = [] := by
  have hopen : ¬ LeftOpenAt ls i := by
    intro hopen
    have hcounts := hopen.1
    rw [countsAt_eq hline, h] at hcounts
    cases hcounts
  simp [findingsOn, hopen, h]

theorem findingsOn_of_significant (h : isSignificant line = true) :
    findingsOn ls line i =
      (if LeftOpenAt ls i then [missingTerminator i (Text.width line)] else []) ++
        (quoteFinding? i line (Text.width line)).toList := by
  unfold findingsOn quoteFinding?
  by_cases hq : line.count '"' % 2 = 1 <;> simp [h, hq]

end FindingsOn

/-- **The checks from line `i` on.** What has been collected before need be known only as long as
    a line that counts is still to come: behind the last one nothing is found. -/
theorem pass_eq_flatMap {ls : List Text} (rest : List Text) :
    ∀ (before : List Text) (asked : Bool), ls = before ++ rest →
      ((∃ j, before.length ≤ j ∧ countsAt ls j = true) →
        (asked = true ↔ AsksBefore ls before.length)) →
      pass (lastSignificant? 0 ls) before.length asked rest =
        (rest.zipIdx before.length).flatMap fun x => findingsOn ls x.1 x.2 := by
  induction rest with
  | nil => exact fun _ _ _ _ => rfl
  | cons line rest ih =>
    intro before asked hls hasked
    have hline : ls[before.length]? = some line := by rw [hls]; simp
    have hlen : (before ++ [line]).length = before.length + 1 := by simp
    -- the rest is the same with this line before it
    have hnext := fun b => ih (before ++ [line]) b (by rw [hls]; simp)
    rw [hlen] at hnext
    rw [List.zipIdx_cons, List.flatMap_cons]
    cases hsig : isSignificant line with
    | false =>
      rw [pass_cons_of_insignificant hsig, findingsOn_of_insignificant hline hsig,
        List.nil_append]
      refine hnext asked fun ⟨j, hj, hcounts⟩ => ?_
      rw [asksBefore_succ_of_insignificant hline hsig]
      exact hasked ⟨j, by omega, hcounts⟩
    | true =>
      have hcounts : countsAt ls before.length = true := by rw [countsAt_eq hline, hsig]
      have hask : asked = true ↔ AsksBefore ls before.length :=
        hasked ⟨_, Nat.le_refl _, hcounts⟩
      have hstep := asksBefore_succ_of_significant hline hsig
      have hlast := lastSignificant?_eq_some_iff ls before.length
      rw [findingsOn_of_significant hsig]
      cases hend : endsStatement (Text.trimEdges line) with
      | true =>
        have hno : ¬ AsksBefore ls (before.length + 1) := by
          rw [hstep, hend]
          simp
        rw [pass_cons_of_ends hsig hend, if_neg fun h => hno (leftOpenAt_iff.mp h).2,
          List.nil_append, hnext false fun _ => iff_of_false Bool.false_ne_true hno]
      | false =>
        have hor : (asked || holdsQueryWord line) = true ↔ AsksBefore ls (before.length + 1) := by
          rw [hstep, Bool.or_eq_true, hask]
          simp [hend]
        by_cases hl : lastSignificant? 0 ls = some before.length
        · -- nothing counts behind the last line, so that nothing need be known there
          have hvoid : ¬ ∃ j, before.length + 1 ≤ j ∧ countsAt ls j = true := by
            rintro ⟨j, hj, hyes⟩
            rw [(hlast.mp hl).2 j hj] at hyes
            cases hyes
          rw [pass_cons_of_last hsig hend hl, hnext false fun h => absurd h hvoid]
          have hopen : LeftOpenAt ls before.length ↔ (asked || holdsQueryWord line) = true := by
            rw [leftOpenAt_iff, hor]
            exact and_iff_right (hlast.mp hl)
          simp only [hopen]
        · have hopen : ¬ LeftOpenAt ls before.length := fun h =>
            hl (hlast.mpr (leftOpenAt_iff.mp h).1)
          rw [pass_cons_of_goes_on hsig hend hl, if_neg hopen, List.nil_append,
            hnext _ fun _ => hor]

theorem lineFindings_eq_flatMap (ls : List Text) :
    lineFindings ls = ls.zipIdx.flatMap fun x => findingsOn ls x.1 x.2 := by
  rw [lineFindings_eq_pass]
  refine pass_eq_flatMap ls [] false rfl fun _ => ?_
  exact iff_of_false Bool.false_ne_true (not_asksBefore_zero ls)

/-! ## 5. How many warnings -/

/-- The warnings among the findings of a line. -/
theorem warnings_findingsOn (ls : List Text) (line : Text) (i : Nat) :
    ((findingsOn ls line i).filter fun f => f.code = some .missingTerminator).length =
      if LeftOpenAt ls i then 1 else 0 := by
  unfold findingsOn
  split <;> split <;> rfl

/-- There are as many warnings as lines on which a statement is left open. -/
theorem length_warnings (ls : List Text) (xs : List (Text × Nat)) :
    ((xs.flatMap fun x => findingsOn ls x.1 x.2).filter
      fun f => f.code = some .missingTerminator).length =
      (xs.filter fun x => LeftOpenAt ls x.2).length := by
  induction xs with
  | nil => rfl
  | cons x xs ih =>
    rw [List.flatMap_cons, List.filter_append, List.length_append, ih, warnings_findingsOn]
    by_cases h : LeftOpenAt ls x.2
    · rw [if_pos h, List.filter_cons_of_pos (by simpa using h), List.length_cons, Nat.add_comm]
    · rw [if_neg h, List.filter_cons_of_neg (by simpa using h), Nat.zero_add]

/-- **At most one line is warned about.** -/
theorem length_warnings_le_one (ls : List Text) :
    ((lineFindings ls).filter fun f => f.code = some .missingTerminator).length ≤ 1 := by
  rw [lineFindings_eq_flatMap, length_warnings]
  -- the indices are distinct, and all of them are the same
  have hnodup : ((ls.zipIdx.filter fun x => LeftOpenAt ls x.2).map Prod.snd).Nodup := by
    refine List.Nodup.sublist (List.filter_sublist.map Prod.snd) ?_
    rw [List.zipIdx_map_snd]
    exact List.nodup_range'
  generalize hxs : (ls.zipIdx.filter fun x => LeftOpenAt ls x.2) = xs at hnodup
  have hopen : ∀ x ∈ xs, LeftOpenAt ls x.2 := by
    intro x hx
    rw [← hxs] at hx
    simpa using (List.mem_filter.mp hx).2
  cases xs with
  | nil => exact Nat.zero_le 1
  | cons x xs =>
    have hsub : ((x :: xs).map Prod.snd) ⊆ [x.2] := by
      intro i hi
      obtain ⟨y, hy, rfl⟩ := List.mem_map.mp hi
      exact List.mem_singleton.mpr ((hopen y hy).unique (hopen x List.mem_cons_self))
    have hle := (hnodup.subperm hsub).length_le
    rwa [List.length_map] at hle

/-! ## 6. All findings -/

/-- **The line checks in closed form.** Line by line: a warning, if a statement is left open on
    the line, and then an error, if the line counts and has an odd number of quotes; both are
    about the whole line. So at most one line is warned about, and what the look ahead says never
    matters. -/
theorem lineFindings_closed_form (ls : List Text) :
    lineFindings ls = (ls.zipIdx.flatMap fun (line, i) =>
      (if LeftOpenAt ls i then [missingTerminator i (Text.width line)] else []) ++
        (if isSignificant line = true ∧ line.count '"' % 2 = 1 then
          [unclosedString i (Text.width line)] else [])) ∧
    ((lineFindings ls).filter fun f => f.code = some .missingTerminator).length ≤ 1 ∧
    ∀ ahead : List Text → Bool,
      findingsWith ahead (lastSignificant? 0 ls) 0 .idle ls = lineFindings ls := by
  refine ⟨lineFindings_eq_flatMap ls, length_warnings_le_one ls, fun ahead => ?_⟩
  rw [findingsWith_eq_pass, lineFindings_eq_pass]
  rfl

/-- The keyword and the open end are on different lines; both findings are about the last line that
    counts, and the warning comes first. -/
example :
    lineFindings [['A', 'S', 'K'], ['"', 'x'], ['>', '>', ';']] =
      [missingTerminator 1 2, unclosedString 1 2] := by
  decide +kernel

end Nsql.Scan
