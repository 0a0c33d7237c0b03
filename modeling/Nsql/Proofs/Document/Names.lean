/-
  File:      Nsql/Proofs/Document/Names.lean
  Subject:   The name at a column of a line.

  The search for names asks for characters of names between two word boundaries (`Matched`). Word
  characters are many more than characters of names, so a stretch of the latter may be part of a
  longer word, and then nothing in that word is a name. What is found are the runs of word
  characters that are names as a whole (`StandsAt`). Between two runs something else stands, so
  the cursor is on one of them at most, although both ends of a run count. The columns of a name
  are given in 32 bits, which loses nothing on a line that is not wider.

  * `matched_iff` -- a stretch between two boundaries is a whole run;
  * `mem_namesFrom_iff` -- the search finds the names of a line, and no others;
  * `RunAt.unique` -- no column is on two runs;
  * **`name_at_column`** -- the name at a column, and when there is none.
-/
import Nsql.Document.Hover
import Nsql.Proofs.Text.Runs

namespace Nsql

/-! ## 1. Characters of names -/

theorem isDigit_iff {c : Char} : c.isDigit = true ↔ 48 ≤ c.toNat ∧ c.toNat ≤ 57 := by
  show (decide (c.val ≥ '0'.val) && decide (c.val ≤ '9'.val)) = true ↔ _
  simp only [Bool.and_eq_true, decide_eq_true_eq, ge_iff_le, UInt32.le_iff_toNat_le]
  exact Iff.rfl

/-- Names are written in ASCII. -/
theorem lt_of_isNameChar {c : Char} (h : isNameChar c = true) : c.toNat < 0x80 := by
  rw [isNameChar, Char.isAlphanum, Bool.or_eq_true, Bool.or_eq_true, isAlpha_iff, isDigit_iff,
    beq_iff_eq] at h
  rcases h with (h | h) | rfl
  · omega
  · omega
  · decide

theorem isWord_of_isNameChar {c : Char} (h : isNameChar c = true) : isWord c = true := by
  rw [isWord, if_pos (lt_of_isNameChar h)]
  exact h

theorem unitsOf_of_isNameChar {c : Char} (h : isNameChar c = true) : unitsOf c = 1 := by
  have hlow := lt_of_isNameChar h
  exact if_pos (by omega)

/-- Whether a word is a name: it consists of characters of names and does not start with a digit. -/
def isName (word : Text) : Bool := word.all isNameChar && word.head?.all fun c => !c.isDigit

theorem isNameChar_of_mem {word : Text} (h : isName word = true) {c : Char} (hc : c ∈ word) :
    isNameChar c = true := by
  rw [isName, Bool.and_eq_true] at h
  exact List.all_eq_true.mp h.1 c hc

/-- A name is as wide as it is long. -/
theorem width_of_isName {word : Text} (h : isName word = true) :
    Text.width word = word.length := by
  have hall : ∀ c ∈ word, unitsOf c = 1 :=
    fun c hc => unitsOf_of_isNameChar (isNameChar_of_mem h hc)
  clear h
  induction word with
  | nil => rfl
  | cons c word ih =>
    rw [Text.width_cons, List.length_cons, hall c List.mem_cons_self,
      ih fun x hx => hall x (List.mem_cons_of_mem c hx)]
    omega

/-! ## 2. Columns -/

namespace Text

theorem width_take_succ {t : Text} {i : Nat} {c : Char} (h : t[i]? = some c) :
    width (t.take (i + 1)) = width (t.take i) + unitsOf c := by
  rw [List.take_add_one, h, Option.toList_some, width_append]
  rfl

/-- Places further down have larger columns. -/
theorem width_take_lt {t : Text} {i j : Nat} (hij : i < j) (hj : j ≤ t.length) :
    width (t.take i) < width (t.take j) := by
  obtain ⟨c, u, hu⟩ := exists_take_eq hij hj
  have hpos := unitsOf_pos c
  rw [hu, width_append, width_cons]
  omega

theorem width_take_le (t : Text) (i : Nat) : width (t.take i) ≤ width t := by
  have hsum := width_append (t.take i) (t.drop i)
  rw [List.take_append_drop] at hsum
  omega

/-- A column is on a run of a line, from the column where the run starts to the one behind it. -/
structure RunAt (line : Text) (column i j : Nat) : Prop where
  run : IsRun line i j
  start_le : width (line.take i) ≤ column
  le_stop : column ≤ width (line.take j)

/-- **A column is on one run at most**, although both ends of a run count. -/
theorem RunAt.unique {line : Text} {column i j i' j' : Nat} (h : RunAt line column i j)
    (h' : RunAt line column i' j') : i = i' ∧ j = j' := by
  have hle := h.run.le_length
  have hle' := h'.run.le_length
  have hlt := h.run.lt
  have hlt' := h'.run.lt
  have hstart := h.start_le
  have hstart' := h'.start_le
  have hstop := h.le_stop
  have hstop' := h'.le_stop
  rcases h.run.eq_or_apart h'.run with heq | hapart | hapart
  · exact heq
  · have hcolumn : width (line.take j) < width (line.take i') := width_take_lt hapart (by omega)
    omega
  · have hcolumn : width (line.take j') < width (line.take i) := width_take_lt hapart (by omega)
    omega

end Text

/-! ## 3. What the search looks for -/

namespace Name

open Text (IsRun RunAt before? getElem?_extract)

/-- A word boundary: a word character stands on one side of the place, and on one side only. -/
def IsBoundary (t : Text) (i : Nat) : Prop := isEdge (before? t i) ≠ isEdge t[i]?

/-- What the search for names looks for: a name from one word boundary to another. -/
structure Matched (t : Text) (i j : Nat) : Prop where
  lt : i < j
  le_length : j ≤ t.length
  front : IsBoundary t i
  name : isName (t.extract i j) = true
  back : IsBoundary t j

theorem exists_nameChar {t : Text} {i j k : Nat} (hname : isName (t.extract i j) = true)
    (hj : j ≤ t.length) (hik : i ≤ k) (hkj : k < j) :
    ∃ c, t[k]? = some c ∧ isNameChar c = true := by
  have hget : (t.extract i j)[k - i]? = t[k]? := by
    rw [getElem?_extract, if_pos (by omega), Nat.add_sub_cancel' hik]
  rw [List.getElem?_eq_getElem (show k < t.length by omega)] at hget
  exact ⟨_, List.getElem?_eq_getElem _, isNameChar_of_mem hname (List.mem_of_getElem? hget)⟩

/-- **A name between two boundaries is a whole run.** Its first and its last character are word
    characters, so the boundaries are edges on the outer side, and no shorter stretch will do. -/
theorem matched_iff {t : Text} {i j : Nat} :
    Matched t i j ↔ IsRun t i j ∧ isName (t.extract i j) = true := by
  constructor
  · intro h
    have hlt := h.lt
    have hword : ∀ k, i ≤ k → k < j → ∃ c, t[k]? = some c ∧ isWord c = true := by
      intro k hik hkj
      obtain ⟨c, hc, hchar⟩ := exists_nameChar h.name h.le_length hik hkj
      exact ⟨c, hc, isWord_of_isNameChar hchar⟩
    refine ⟨⟨hlt, hword, ?_, ?_⟩, h.name⟩
    · obtain ⟨c, hc, hcword⟩ := hword i (Nat.le_refl i) hlt
      have hfront := h.front
      rw [IsBoundary, hc, isEdge_some, hcword] at hfront
      exact eq_true_of_ne_false hfront
    · obtain ⟨k, rfl⟩ : ∃ k, j = k + 1 := ⟨j - 1, by omega⟩
      obtain ⟨c, hc, hcword⟩ := hword k (by omega) (Nat.lt_succ_self k)
      have hback := h.back
      rw [IsBoundary, Text.before?_succ, hc, isEdge_some, hcword] at hback
      exact eq_true_of_ne_false hback.symm
  · intro ⟨h, hname⟩
    have hlt := h.lt
    refine ⟨hlt, h.le_length, ?_, hname, ?_⟩
    · obtain ⟨c, hc, hcword⟩ := h.word i (Nat.le_refl i) hlt
      rw [IsBoundary, h.edge_before, hc, isEdge_some, hcword]
      decide
    · obtain ⟨k, rfl⟩ : ∃ k, j = k + 1 := ⟨j - 1, by omega⟩
      obtain ⟨c, hc, hcword⟩ := h.word k (by omega) (Nat.lt_succ_self k)
      rw [IsBoundary, h.edge_behind, Text.before?_succ, hc, isEdge_some, hcword]
      decide

/-! ## 4. What the search finds -/

/-- A name stands at a place of a line: a run spells it. It starts at the column where the run
    starts, and it ends as many columns further on as it has characters. -/
structure StandsAt (n : Name) (line : Text) (i : Nat) : Prop where
  run : IsRun line i (i + n.word.length)
  spelled : line.extract i (i + n.word.length) = n.word
  name : isName n.word = true
  start_eq : n.start = Text.width (line.take i)
  stop_eq : n.stop = n.start + n.word.length

/-- The cursor is on a name from its first column to the one behind its last character. -/
def Covers (n : Name) (column : Nat) : Prop := n.start ≤ column ∧ column ≤ n.stop

/-- The name at the front of what is left is the run there, if it is a name. -/
theorem atFront?_drop_iff {t word : Text} {i : Nat} :
    atFront? (before? t i) (t.drop i) = some word ↔
      IsRun t i (i + word.length) ∧ t.extract i (i + word.length) = word ∧
        isName word = true := by
  constructor
  · intro h
    obtain ⟨w, hw⟩ : ∃ w, w = (t.drop i).takeWhile isNameChar := ⟨_, rfl⟩
    have hall : w.all isNameChar = true := by
      rw [hw]
      exact List.all_takeWhile
    have htake : t.extract i (i + w.length) = w := by
      rw [List.extract_eq_take_drop, Nat.add_sub_cancel_left, hw]
      exact List.prefix_iff_eq_take.mp (List.takeWhile_prefix _) |>.symm
    rw [atFront?, ← hw] at h
    cases w with
    | nil => cases h
    | cons c w =>
      simp only [List.drop_drop, List.head?_drop] at h
      split at h
      · rename_i hcond
        obtain rfl := Option.some.inj h
        rw [Bool.and_eq_true, Bool.and_eq_true] at hcond
        obtain ⟨⟨hfront, hdigit⟩, hback⟩ := hcond
        have hname : isName (c :: w) = true := by
          rw [isName, hall]
          exact hdigit
        have hlen := congrArg List.length htake
        rw [List.extract_eq_take_drop, List.length_take, List.length_drop, List.length_cons] at hlen
        refine ⟨⟨by rw [List.length_cons]; omega, fun k hik hk => ?_, hfront, hback⟩, htake, hname⟩
        obtain ⟨x, hx, hchar⟩ := exists_nameChar (t := t) (by rw [htake]; exact hname)
          (by rw [List.length_cons]; omega) hik hk
        exact ⟨x, hx, isWord_of_isNameChar hchar⟩
      · cases h
  · intro ⟨hrun, hspelled, hname⟩
    have hlt := hrun.lt
    have hsplit : t.drop i = word ++ t.drop (i + word.length) := by
      have hboth := List.take_append_drop word.length (t.drop i)
      rw [List.extract_eq_take_drop, Nat.add_sub_cancel_left] at hspelled
      rw [hspelled, List.drop_drop] at hboth
      exact hboth.symm
    -- what stands behind the run is no word character, so no character of names either
    have hrest : (t.drop (i + word.length)).takeWhile isNameChar = [] := by
      cases hu : t.drop (i + word.length) with
      | nil => rfl
      | cons c u =>
        have hedge := hrun.edge_behind
        rw [(Text.getElem?_of_drop hu).1, isEdge_some, Bool.not_eq_true'] at hedge
        refine List.takeWhile_cons_of_neg fun hchar => ?_
        rw [isWord_of_isNameChar hchar] at hedge
        cases hedge
    have hword : (t.drop i).takeWhile isNameChar = word := by
      rw [hsplit, List.takeWhile_append_of_pos fun c hc => isNameChar_of_mem hname hc, hrest,
        List.append_nil]
    rw [atFront?, hword]
    cases word with
    | nil => exact absurd hlt (Nat.lt_irrefl i)
    | cons c word =>
      have hdigit : (!c.isDigit) = true := by
        rw [isName, Bool.and_eq_true] at hname
        exact hname.2
      simp only [List.drop_drop, List.head?_drop]
      rw [if_pos]
      rw [hrun.edge_before, hrun.edge_behind, hdigit]
      rfl

theorem standsAt_iff {line : Text} {n : Name} {i : Nat} :
    n.StandsAt line i ↔ ∃ word, atFront? (before? line i) (line.drop i) = some word ∧
      n = ⟨word, Text.width (line.take i), Text.width (line.take i) + Text.width word⟩ := by
  constructor
  · intro h
    refine ⟨n.word, atFront?_drop_iff.mpr ⟨h.run, h.spelled, h.name⟩, ?_⟩
    rw [width_of_isName h.name, ← h.start_eq, ← h.stop_eq]
  · intro ⟨word, hfront, hn⟩
    obtain ⟨hrun, hspelled, hname⟩ := atFront?_drop_iff.mp hfront
    subst hn
    refine ⟨hrun, hspelled, hname, rfl, ?_⟩
    show _ + Text.width word = _ + word.length
    rw [width_of_isName hname]

/-- **The search finds the names of a line**, and no others. -/
theorem mem_namesFrom_iff {line : Text} {n : Name} {i : Nat} :
    n ∈ namesFrom (Text.width (line.take i)) (before? line i) (line.drop i) ↔
      ∃ k, i ≤ k ∧ n.StandsAt line k := by
  induction hu : line.drop i generalizing i with
  | nil =>
    rw [namesFrom]
    constructor
    · intro h
      cases h
    · intro ⟨k, hik, hk⟩
      have hlen := List.drop_eq_nil_iff.mp hu
      have hlt := hk.run.lt
      have hle := hk.run.le_length
      omega
  | cons c u ih =>
    obtain ⟨hc, hdrop⟩ := Text.getElem?_of_drop hu
    have hnext := ih hdrop
    rw [Text.before?_succ, hc, Text.width_take_succ hc] at hnext
    have hhere := @standsAt_iff line n i
    rw [hu] at hhere
    have hsplit : (∃ k, i ≤ k ∧ n.StandsAt line k) ↔
        n.StandsAt line i ∨ ∃ k, i + 1 ≤ k ∧ n.StandsAt line k := by
      constructor
      · intro ⟨k, hik, hk⟩
        rcases Nat.eq_or_lt_of_le hik with rfl | hlt
        · exact .inl hk
        · exact .inr ⟨k, hlt, hk⟩
      · intro h
        rcases h with h | ⟨k, hik, hk⟩
        · exact ⟨i, Nat.le_refl i, h⟩
        · exact ⟨k, by omega, hk⟩
    rw [hsplit, ← hnext, namesFrom]
    cases hfront : atFront? (before? line i) (c :: u) with
    | none =>
      have hno : ¬ n.StandsAt line i := by
        intro h
        obtain ⟨word, hword, -⟩ := hhere.mp h
        rw [hfront] at hword
        cases hword
      simp only [hno, false_or]
    | some word =>
      have hyes : n.StandsAt line i ↔
          n = ⟨word, Text.width (line.take i), Text.width (line.take i) + Text.width word⟩ := by
        rw [hhere, hfront]
        constructor
        · intro ⟨word', hword, hn⟩
          obtain rfl := Option.some.inj hword
          exact hn
        · exact fun hn => ⟨word, rfl, hn⟩
      simp only [List.mem_cons, hyes]

/-! ## 5. The name at a column -/

namespace StandsAt

variable {n m : Name} {line : Text} {i k column : Nat}

theorem width_take_stop (h : n.StandsAt line i) :
    Text.width (line.take (i + n.word.length)) = n.stop := by
  have hspelled := h.spelled
  rw [List.extract_eq_take_drop, Nat.add_sub_cancel_left] at hspelled
  rw [List.take_add, hspelled, Text.width_append, width_of_isName h.name, h.stop_eq, h.start_eq]

theorem stop_le_width (h : n.StandsAt line i) : n.stop ≤ Text.width line := by
  rw [← h.width_take_stop]
  exact Text.width_take_le line _

/-- On a line that can be measured in 32 bits the columns of a name are given as they are. -/
theorem cut_eq (h : n.StandsAt line i) (hline : Text.width line < 4294967296) : n.cut = n := by
  have hstop := h.stop_le_width
  have hlen := h.stop_eq
  rw [cut, low32_eq_self (by omega), low32_eq_self (by omega)]

theorem runAt (h : n.StandsAt line i) (hc : n.Covers column) :
    RunAt line column i (i + n.word.length) := by
  refine ⟨h.run, ?_, ?_⟩
  · rw [← h.start_eq]
    exact hc.1
  · rw [h.width_take_stop]
    exact hc.2

/-- The cursor is on one name at most. -/
theorem unique (hn : n.StandsAt line i) (hm : m.StandsAt line k) (hcn : n.Covers column)
    (hcm : m.Covers column) : n = m := by
  obtain ⟨rfl, hlen⟩ := (hn.runAt hcn).unique (hm.runAt hcm)
  have hword : n.word = m.word := by rw [← hn.spelled, ← hm.spelled, hlen]
  obtain ⟨word, start, stop⟩ := n
  obtain ⟨word', start', stop'⟩ := m
  obtain rfl : word = word' := hword
  obtain rfl : start = start' := hn.start_eq.trans hm.start_eq.symm
  obtain rfl : stop = stop' := hn.stop_eq.trans hm.stop_eq.symm
  rfl

end StandsAt

/-- **The name at a column** is the one that the cursor is on, wherever it stands. -/
theorem under?_eq_some_iff {line : Text} {column : Nat} {n : Name} :
    under? line column = some n ↔ (∃ i, n.StandsAt line i) ∧ n.Covers column := by
  have hmem : ∀ m : Name, m ∈ namesFrom 0 none line ↔ ∃ i, m.StandsAt line i := by
    intro m
    have hall := @mem_namesFrom_iff line m 0
    simp only [List.take_zero, List.drop_zero, Text.before?_zero, Text.width_nil, Nat.zero_le,
      true_and] at hall
    exact hall
  have hcovers : ∀ m : Name, (decide (m.start ≤ column) && decide (column ≤ m.stop)) = true ↔
      m.Covers column := by
    intro m
    rw [Bool.and_eq_true, decide_eq_true_eq, decide_eq_true_eq]
    exact Iff.rfl
  have hfound : ∀ {m : Name}, under? line column = some m →
      (∃ i, m.StandsAt line i) ∧ m.Covers column := by
    intro m hm
    have hcovered := List.find?_some hm
    exact ⟨(hmem m).mp (List.mem_of_find?_eq_some hm), (hcovers m).mp hcovered⟩
  constructor
  · exact hfound
  · intro ⟨⟨i, hn⟩, hc⟩
    cases hfind : under? line column with
    | none =>
      have hno := List.find?_eq_none.mp hfind n ((hmem n).mpr ⟨i, hn⟩)
      exact absurd ((hcovers n).mpr hc) hno
    | some m =>
      -- another name that the cursor is on would be the same
      obtain ⟨⟨k, hm⟩, hcm⟩ := hfound hfind
      rw [hm.unique hn hcm hc]

theorem at?_eq_some_iff {line : Text} {column : Nat} {n : Name} :
    at? line column = some n ↔
      ∃ (m : Name) (i : Nat), m.StandsAt line i ∧ m.Covers column ∧ n = m.cut := by
  rw [at?, Option.map_eq_some_iff]
  constructor
  · intro ⟨m, hm, hn⟩
    obtain ⟨⟨i, hi⟩, hc⟩ := under?_eq_some_iff.mp hm
    exact ⟨m, i, hi, hc, hn.symm⟩
  · intro ⟨m, i, hi, hc, hn⟩
    exact ⟨m, under?_eq_some_iff.mpr ⟨⟨i, hi⟩, hc⟩, hn.symm⟩

theorem at?_eq_some_iff_of_lt {line : Text} (hline : Text.width line < 4294967296) {column : Nat}
    {n : Name} : at? line column = some n ↔ (∃ i, n.StandsAt line i) ∧ n.Covers column := by
  rw [at?_eq_some_iff]
  constructor
  · intro ⟨m, i, hi, hc, hn⟩
    rw [hi.cut_eq hline] at hn
    subst hn
    exact ⟨⟨i, hi⟩, hc⟩
  · intro ⟨⟨i, hi⟩, hc⟩
    exact ⟨n, i, hi, hc, (hi.cut_eq hline).symm⟩

/-- Where the cursor is on a run that is no name, there is nothing. -/
theorem at?_eq_none_of_run {line : Text} {column i j : Nat} (h : RunAt line column i j)
    (hname : isName (line.extract i j) = false) : at? line column = none := by
  refine Option.eq_none_iff_forall_ne_some.mpr fun n hn => ?_
  obtain ⟨m, k, hk, hc, -⟩ := at?_eq_some_iff.mp hn
  obtain ⟨rfl, rfl⟩ := h.unique (hk.runAt hc)
  rw [hk.spelled, hk.name] at hname
  cases hname

/-- **The name at a column is the run that the column is on, if this is a name.** What is found is
    a run of word characters that consists of characters of names and does not start with a digit,
    with the columns where it starts and ends, and the cursor is between them; and every such run
    is found. All columns of a name lead to it. The columns are given in 32 bits: on a line that
    can be measured in them they are the columns themselves, and they are columns of the line. No
    column is on two runs, and on a run that is no name nothing is found. The stretches between two
    word boundaries that look like names are the runs that are names, so there is no choice among
    them. -/
theorem name_at_column (line : Text) (column : Nat) :
    (∀ n, at? line column = some n ↔
      ∃ (m : Name) (i : Nat), m.StandsAt line i ∧ m.Covers column ∧ n = m.cut) ∧
    (∀ (m : Name) (i : Nat), m.StandsAt line i →
      ∀ column', m.Covers column' → at? line column' = some m.cut) ∧
    (Text.width line < 4294967296 →
      (∀ n, at? line column = some n ↔ (∃ i, n.StandsAt line i) ∧ n.Covers column) ∧
      ∀ n, at? line column = some n → n.stop ≤ Text.width line ∧
        ∀ column', n.Covers column' → at? line column' = some n) ∧
    (∀ i j, RunAt line column i j →
      (∀ i' j', RunAt line column i' j' → i = i' ∧ j = j') ∧
      (isName (line.extract i j) = false → at? line column = none)) ∧
    (∀ i j, Matched line i j ↔ IsRun line i j ∧ isName (line.extract i j) = true) := by
  refine ⟨fun n => at?_eq_some_iff, fun m i hm column' hc => ?_,
    fun hline => ⟨fun n => at?_eq_some_iff_of_lt hline, fun n hn => ?_⟩,
    fun i j h => ⟨fun i' j' => h.unique, at?_eq_none_of_run h⟩, fun i j => matched_iff⟩
  · exact at?_eq_some_iff.mpr ⟨m, i, hm, hc, rfl⟩
  · obtain ⟨⟨i, hi⟩, -⟩ := (at?_eq_some_iff_of_lt hline).mp hn
    exact ⟨hi.stop_le_width, fun column' hc => (at?_eq_some_iff_of_lt hline).mpr ⟨⟨i, hi⟩, hc⟩⟩

/-- Behind a character of two units, a name with both of its ends, a word that only begins like a
    name, and one that starts with a digit. -/
theorem name_at_column_beside_pair :
    at? "😀 x_1;café 9a".toList 6 = some ⟨['x', '_', '1'], 3, 6⟩ ∧
    at? "😀 x_1;café 9a".toList 3 = some ⟨['x', '_', '1'], 3, 6⟩ ∧
    (RunAt "😀 x_1;café 9a".toList 8 6 10 ∧ at? "😀 x_1;café 9a".toList 8 = none) ∧
    RunAt "😀 x_1;café 9a".toList 14 11 13 ∧ at? "😀 x_1;café 9a".toList 14 = none := by
  have hname : at? "😀 x_1;café 9a".toList 6 = some ⟨['x', '_', '1'], 3, 6⟩ := by decide +kernel
  have haccent : RunAt "😀 x_1;café 9a".toList 8 6 10 :=
    ⟨by decide +kernel, by decide +kernel, by decide +kernel⟩
  have hdigit : RunAt "😀 x_1;café 9a".toList 14 11 13 :=
    ⟨by decide +kernel, by decide +kernel, by decide +kernel⟩
  have hwidth : Text.width "😀 x_1;café 9a".toList < 4294967296 := by decide +kernel
  refine ⟨hname, ?_, ⟨haccent, ?_⟩, hdigit, ?_⟩
  · exact (((name_at_column _ 6).2.2.1 hwidth).2 _ hname).2 3 ⟨by decide, by decide⟩
  · exact ((name_at_column _ 8).2.2.2.1 6 10 haccent).2 (by decide +kernel)
  · exact ((name_at_column _ 14).2.2.2.1 11 13 hdigit).2 (by decide +kernel)

end Name

end Nsql
