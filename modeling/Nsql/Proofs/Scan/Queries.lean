/-
  File:      Nsql/Proofs/Scan/Queries.lean
  Subject:   Where queries begin and end.

  A semicolon ends every query that has begun, and a line feed ends the search for the rest of a
  query. So the queries of a text with both of them are those up to the semicolon and those behind
  the line feed.

  * `behindWord?_append` -- a word ends before a character that is none of its letters;
  * `queryAt?_append`, `queriesFrom_append` -- a query ends before a semicolon;
  * `queriesFrom_shift` -- queries do not depend on where the text is;
  * `queries_append` -- the queries of a text with a terminated line.
-/
import Nsql.Scan.Query

namespace Nsql

namespace Text

/-! ## 1. Words in front of a foreign character -/

variable {letters : Letters} {x : Char}

/-- A word that does not hold a character is found in front of it as at the end of a text. -/
theorem behind?_append {word : Text} (hx : ∀ w ∈ word, letters.same w x = false) (s u : Text) :
    behind? letters word (s ++ x :: u) = (behind? letters word s).map (· ++ x :: u) := by
  induction word generalizing s with
  | nil => rfl
  | cons w ws ih =>
    have hw : letters.same w x = false := hx w List.mem_cons_self
    cases s with
    | nil => simp [behind?, hw]
    | cons c s =>
      rw [List.cons_append, behind?, behind?, ih (fun v hv => hx v (List.mem_cons_of_mem _ hv)) s]
      split <;> rfl

/-- The same of whole words, if the character is no word character. -/
theorem behindWord?_append {word : Text} (hx : ∀ w ∈ word, letters.same w x = false)
    (hedge : isWord x = false) (before : Option Char) (s u : Text) :
    behindWord? letters word before (s ++ x :: u) =
      (behindWord? letters word before s).map (· ++ x :: u) := by
  have hhead : ∀ r : Text, isEdge (r ++ x :: u).head? = isEdge r.head? := by
    intro r
    cases r with
    | nil => simp [hedge]
    | cons c r => rfl
  rw [behindWord?, behindWord?, behind?_append hx]
  split
  · cases behind? letters word s with
    | none => rfl
    | some r =>
      simp only [Option.map_some, hhead]
      split <;> rfl
  · rfl

/-- Only whether a word character stands before a text counts. -/
theorem behindWord?_congr {before before' : Option Char} (h : isEdge before = isEdge before')
    (word t : Text) : behindWord? letters word before t = behindWord? letters word before' t := by
  rw [behindWord?, behindWord?, h]

end Text

namespace Scan

/-! ## 2. Queries in front of a semicolon -/

theorem findWord_ne_semicolon : ∀ w ∈ findWord, Letters.anyCase.same w ';' = false := by
  have hall : (findWord.all fun w => !Letters.anyCase.same w ';') = true := by decide
  simpa using hall

theorem fromWord_ne_semicolon : ∀ w ∈ fromWord, Letters.anyCase.same w ';' = false := by
  have hall : (fromWord.all fun w => !Letters.anyCase.same w ';') = true := by decide
  simpa using hall

theorem behindLastFrom?_cons {c : Char} (hc : c ≠ '\n') (before : Option Char) (t : Text) :
    behindLastFrom? before (c :: t) =
      (behindLastFrom? (some c) t).or (Text.behindWord? .anyCase fromWord before (c :: t)) := by
  rw [behindLastFrom?, if_neg hc]
  cases behindLastFrom? (some c) t <;> rfl

/-- Where nothing can be found behind a semicolon, the last FROM stands in front of it. -/
theorem behindLastFrom?_append {u : Text} (hu : behindLastFrom? (some ';') u = none) (s : Text) :
    ∀ before, behindLastFrom? before (s ++ ';' :: u) =
      (behindLastFrom? before s).map (· ++ ';' :: u) := by
  have hword : ∀ before s, Text.behindWord? .anyCase fromWord before (s ++ ';' :: u) =
      (Text.behindWord? .anyCase fromWord before s).map (· ++ ';' :: u) :=
    fun before s => Text.behindWord?_append fromWord_ne_semicolon (by decide) before s u
  induction s with
  | nil =>
    intro before
    have hnone : Text.behindWord? .anyCase fromWord before [] = none := by
      unfold Text.behindWord?
      split <;> rfl
    have hnil := hword before []
    rw [hnone] at hnil
    rw [List.nil_append] at hnil ⊢
    rw [behindLastFrom?_cons (by decide), hu, hnil]
    rfl
  | cons c s ih =>
    intro before
    by_cases hc : c = '\n'
    · subst hc
      rfl
    · rw [List.cons_append, behindLastFrom?_cons hc, behindLastFrom?_cons hc, ih (some c),
        ← List.cons_append, hword before (c :: s)]
      cases behindLastFrom? (some c) s <;> rfl

/-- **A query ends before a semicolon**, so what stands behind it does not matter. -/
theorem queryAt?_append {u : Text} (hu : behindLastFrom? (some ';') u = none)
    (before : Option Char) (s : Text) : queryAt? before (s ++ ';' :: u) = queryAt? before s := by
  rw [queryAt?, queryAt?, Text.behindWord?_append findWord_ne_semicolon (by decide)]
  cases Text.behindWord? .anyCase findWord before s with
  | none => rfl
  | some rest =>
    simp only [Option.map_some, behindLastFrom?_append hu]
    cases behindLastFrom? findWord.getLast? rest with
    | none => rfl
    | some rest =>
      have hdrop : (rest ++ ';' :: u).dropWhile (· ≠ ';') =
          rest.dropWhile (· ≠ ';') ++ ';' :: u := by
        rw [List.dropWhile_append]
        split
        · rename_i hempty
          rw [List.isEmpty_iff.mp hempty]
          rfl
        · rfl
      have hlen : (s ++ ';' :: u).length - (rest.dropWhile (· ≠ ';') ++ ';' :: u).length =
          s.length - (rest.dropWhile (· ≠ ';')).length := by
        rw [List.length_append, List.length_append, Nat.add_sub_add_right]
      simp only [Option.map_some, hdrop, hlen]
      rw [List.take_append_of_le_length (Nat.sub_le _ _)]

theorem length_le_of_queryAt? {before : Option Char} {t body : Text}
    (h : queryAt? before t = some body) : body.length ≤ t.length := by
  unfold queryAt? at h
  split at h
  · cases h
  · split at h
    · cases h
    · cases h
      rw [List.length_take]
      exact Nat.min_le_right _ _

/-- A query begins with a letter of the word that opens it. -/
theorem queryAt?_eq_none {c : Char} (hc : ∀ w ∈ findWord.head?, Letters.anyCase.same w c = false)
    (before : Option Char) (t : Text) : queryAt? before (c :: t) = none := by
  have hno : Text.behindWord? .anyCase findWord before (c :: t) = none := by
    have hfirst : Letters.anyCase.same 'F' c = false := hc 'F' rfl
    unfold Text.behindWord?
    simp only [findWord, Text.behind?, hfirst]
    split <;> rfl
  rw [queryAt?, hno]

theorem queriesFrom_cons_of_none {before : Option Char} {c : Char} {t : Text}
    (h : queryAt? before (c :: t) = none) (offset : Nat) :
    queriesFrom 0 offset before (c :: t) = queriesFrom 0 (offset + bytesOf c) (some c) t := by
  rw [queriesFrom, h]

/-- **Queries on both sides of a semicolon** behind which nothing goes on. -/
theorem queriesFrom_append {u : Text} (hu : behindLastFrom? (some ';') u = none) (s : Text) :
    ∀ (skip offset : Nat) (before : Option Char), skip ≤ s.length →
      queriesFrom skip offset before (s ++ ';' :: u) =
        queriesFrom skip offset before s ++
          queriesFrom 0 (offset + Text.size s + 1) (some ';') u := by
  induction s with
  | nil =>
    intro skip offset before hskip
    obtain rfl : skip = 0 := Nat.eq_zero_of_le_zero hskip
    have hword : ∀ w ∈ findWord.head?, Letters.anyCase.same w ';' = false := by
      rintro w ⟨⟩
      decide
    rw [List.nil_append, queriesFrom_cons_of_none (queryAt?_eq_none hword before u)]
    rfl
  | cons c s ih =>
    intro skip offset before hskip
    have hnext : ∀ k, k ≤ s.length →
        queriesFrom k (offset + bytesOf c) (some c) (s ++ ';' :: u) =
          queriesFrom k (offset + bytesOf c) (some c) s ++
            queriesFrom 0 (offset + Text.size (c :: s) + 1) (some ';') u := by
      intro k hk
      rw [ih k _ _ hk, Text.size_cons, Nat.add_assoc offset]
    cases skip with
    | succ skip =>
      rw [List.cons_append, queriesFrom, queriesFrom, hnext skip (Nat.le_of_succ_le_succ hskip)]
    | zero =>
      have hquery := queryAt?_append hu before (c :: s)
      rw [List.cons_append] at hquery
      rw [List.cons_append, queriesFrom, queriesFrom, hquery]
      cases hbody : queryAt? before (c :: s) with
      | none => exact hnext 0 (Nat.zero_le _)
      | some body =>
        have hle := length_le_of_queryAt? hbody
        rw [List.length_cons] at hle
        simp only [hnext (body.length - 1) (by omega), List.cons_append]

/-! ## 3. Queries further down -/

namespace Query

/-- The same query, so many bytes further down. -/
def shift (n : Nat) (q : Query) : Query := { q with offset := q.offset + n }

end Query

theorem queriesFrom_shift (n : Nat) (t : Text) :
    ∀ (skip offset : Nat) (before : Option Char),
      queriesFrom skip (offset + n) before t =
        (queriesFrom skip offset before t).map (Query.shift n) := by
  induction t with
  | nil => exact fun _ _ _ => rfl
  | cons c t ih =>
    intro skip offset before
    have hnext : ∀ k, queriesFrom k (offset + n + bytesOf c) (some c) t =
        (queriesFrom k (offset + bytesOf c) (some c) t).map (Query.shift n) := by
      intro k
      rw [← ih, Nat.add_right_comm]
    cases skip with
    | succ skip => rw [queriesFrom, queriesFrom, hnext]
    | zero =>
      rw [queriesFrom, queriesFrom]
      cases queryAt? before (c :: t) with
      | none => exact hnext 0
      | some body =>
        simp only [hnext, List.map_cons]
        rfl

/-- Only whether a word character stands before a text counts. -/
theorem queriesFrom_congr {before before' : Option Char} (h : isEdge before = isEdge before')
    (offset : Nat) (t : Text) : queriesFrom 0 offset before t = queriesFrom 0 offset before' t := by
  cases t with
  | nil => rfl
  | cons c t =>
    have hquery : queryAt? before (c :: t) = queryAt? before' (c :: t) := by
      rw [queryAt?, queryAt?, Text.behindWord?_congr h]
    rw [queriesFrom, queriesFrom, hquery]

/-- **The queries of a text with a terminated line**: those up to it, and those behind it. -/
theorem queries_append (s t : Text) :
    queries (s ++ ';' :: '\n' :: t) =
      queries (s ++ [';']) ++ (queries t).map (Query.shift (Text.size s + 2)) := by
  have hleft : queries (s ++ [';']) = queries s := by
    unfold queries
    rw [queriesFrom_append rfl s 0 0 none (Nat.zero_le _)]
    exact List.append_nil _
  have hright : queriesFrom 0 (0 + Text.size s + 1) (some ';') ('\n' :: t) =
      (queries t).map (Query.shift (Text.size s + 2)) := by
    have hedge : isEdge (some '\n') = isEdge none := by decide
    have hword : ∀ w ∈ findWord.head?, Letters.anyCase.same w '\n' = false := by
      rintro w ⟨⟩
      decide
    have hoffset : 0 + Text.size s + 1 + bytesOf '\n' = 0 + (Text.size s + 2) := by
      rw [show bytesOf '\n' = 1 from rfl]
      omega
    rw [queriesFrom_cons_of_none (queryAt?_eq_none hword (some ';') t),
      queriesFrom_congr hedge, hoffset, queriesFrom_shift]
    rfl
  rw [hleft, ← hright]
  exact queriesFrom_append rfl s 0 0 none (Nat.zero_le _)

/-! ## 4. Hints -/

/-- A query begins inside its text. -/
theorem offset_le_of_mem_queriesFrom {q : Query} {t : Text} :
    ∀ {skip offset : Nat} {before : Option Char}, q ∈ queriesFrom skip offset before t →
      q.offset ≤ offset + Text.size t := by
  induction t with
  | nil => exact fun h => absurd h List.not_mem_nil
  | cons c t ih =>
    intro skip offset before h
    have hnext : ∀ {k}, q ∈ queriesFrom k (offset + bytesOf c) (some c) t →
        q.offset ≤ offset + Text.size (c :: t) := by
      intro k hq
      have hle := ih hq
      rw [Text.size_cons]
      omega
    cases skip with
    | succ skip => exact hnext h
    | zero =>
      rw [queriesFrom] at h
      cases hbody : queryAt? before (c :: t) with
      | none =>
        rw [hbody] at h
        exact hnext h
      | some body =>
        rw [hbody] at h
        rcases List.mem_cons.mp h with rfl | h
        · exact Nat.le_add_right _ _
        · exact hnext h

/-- The hint for a query of a text. -/
def Query.hint (t : Text) (q : Query) : Diagnostic :=
  missingFilter (Text.lineAtByte t q.offset)
    (Text.lineWidth (Text.lines t) (Text.lineAtByte t q.offset))

theorem queryFindings_eq (t : Text) :
    queryFindings t = ((queries t).filter fun q => !q.isFiltered).map (Query.hint t) := rfl

end Scan

end Nsql
