/-
  File:      Nsql/Proofs/Scan/Keywords.lean
  Subject:   The questions about words are questions about runs.

  The scanner asks whether a line holds a word that begins a query, whether it begins with one, and
  whether it ends a statement. It answers by looking at each place of the line, or from its end
  backwards. What it asks for can be said without any order of search: the words of a line are its
  maximal runs of word characters, and one of them, or the first one, or the last one has to be a
  keyword, letter by letter.

  * `holdsQueryWord_iff`, `beginsStatement_iff`, `endsPolitely_iff` -- the three questions;
  * `holdsQueryWord_intercalate` -- lines may be asked one by one or all together;
  * **`keywords_are_whole_words`** -- all of this.
-/
import Nsql.Proofs.Text.Runs
import Nsql.Scan.Statement

namespace Nsql.Scan

open Text (IsRun Apart Lettered dropEndWhile)

theorem lettered_queryWords : ∀ w ∈ queryWords, Lettered w := by decide

theorem lettered_politeWord : Lettered politeWord := by decide

/-! ## 1. Words that begin a query -/

/-- **A line holds a word that begins a query** if one of its runs is such a word. -/
theorem holdsQueryWord_iff {t : Text} :
    holdsQueryWord t = true ↔ ∃ i j, IsRun t i j ∧ t.extract i j ∈ queryWords := by
  rw [holdsQueryWord, Text.holdsWord_iff lettered_queryWords]
  exact exists_congr fun i => Text.exists_wordAt_exact_iff

/-- **A line begins a statement** if the run at its front is a word that begins a query. -/
theorem beginsStatement_iff {t : Text} :
    beginsStatement t = true ↔ ∃ j, IsRun t 0 j ∧ t.extract 0 j ∈ queryWords := by
  have hfront := @Text.startsWithWord_drop_iff .exact queryWords t 0 lettered_queryWords
  rw [Text.exists_wordAt_exact_iff] at hfront
  exact hfront

/-- Behind a line feed words begin anew. -/
theorem holdsQueryWord_lineFeed (p s : Text) :
    holdsQueryWord (p ++ (['\n'] ++ s)) = (holdsQueryWord p || holdsQueryWord s) := by
  have hbefore : Apart p (['\n'] ++ s) := .inr rfl
  have hbehind : Apart ['\n'] s := .inl rfl
  have hfeed : holdsQueryWord ['\n'] = false := rfl
  rw [holdsQueryWord, Text.holdsWord_append lettered_queryWords hbefore,
    Text.holdsWord_append lettered_queryWords hbehind, ← holdsQueryWord, ← holdsQueryWord, hfeed,
    Bool.false_or]
  rfl

/-- **Lines that are put together** hold a word that begins a query if one of them does. -/
theorem holdsQueryWord_intercalate (ls : List Text) :
    holdsQueryWord (['\n'].intercalate ls) = ls.any holdsQueryWord := by
  induction ls with
  | nil => rfl
  | cons l ls ih =>
    cases ls with
    | nil => rw [List.intercalate_singleton, List.any_cons, List.any_nil, Bool.or_false]
    | cons l' ls =>
      rw [List.intercalate_cons_cons, List.append_assoc, holdsQueryWord_lineFeed, ih]
      rfl

/-! ## 2. The end of a statement -/

/-- A polite end, read forwards: the word, and no word character before it. -/
theorem endsPolitely_eq_true_iff {t : Text} :
    endsPolitely t = true ↔
      ∃ p, dropEndWhile isBlank t = p ++ politeWord ∧ isEdge p.getLast? = true := by
  have hreverse : ∀ rest, t.reverse.dropWhile isBlank = politeWord.reverse ++ rest ↔
      dropEndWhile isBlank t = rest.reverse ++ politeWord := by
    intro rest
    rw [dropEndWhile, List.reverse_eq_iff, List.reverse_append, List.reverse_reverse]
  unfold endsPolitely
  split
  · rename_i rest hrest
    rw [Text.behind?_exact_iff, hreverse] at hrest
    rw [← List.getLast?_reverse, hrest]
    constructor
    · intro hedge
      exact ⟨rest.reverse, rfl, hedge⟩
    · intro ⟨p, hp, hedge⟩
      rw [List.append_cancel_right hp]
      exact hedge
  · rename_i hnone
    refine iff_of_false Bool.false_ne_true fun ⟨p, hp, _⟩ => ?_
    rw [← List.reverse_reverse p, ← hreverse, ← Text.behind?_exact_iff, hnone] at hp
    cases hp

/-- **A line ends politely** if, white space at its end aside, its last run is the polite word. -/
theorem endsPolitely_iff {t : Text} :
    endsPolitely t = true ↔
      ∃ i, IsRun (dropEndWhile isBlank t) i (dropEndWhile isBlank t).length ∧
        (dropEndWhile isBlank t).drop i = politeWord := by
  rw [endsPolitely_eq_true_iff]
  constructor
  · intro ⟨p, hp, hedge⟩
    rw [hp]
    exact ⟨p.length, (Text.isRun_append_word_iff lettered_politeWord).mpr hedge, List.drop_left⟩
  · intro ⟨i, hrun, hword⟩
    generalize dropEndWhile isBlank t = u at hrun hword
    have hcut : u = u.take i ++ politeWord := by rw [← hword, List.take_append_drop]
    have hlen : (u.take i).length = i := List.length_take_of_le (Nat.le_of_lt hrun.lt)
    refine ⟨u.take i, hcut, (Text.isRun_append_word_iff lettered_politeWord).mp ?_⟩
    rwa [hlen, ← hcut]

/-! ## 3. All questions -/

/-- **Keywords are whole words.** A text holds a word that begins a query if one of its maximal runs
    of word characters is one, and a statement begins in front of it if the run at its front is
    one. A statement ends with it at a semicolon, or if, white space at the end aside, its last run
    is the polite word. So the lines of a statement may be asked one by one or all together, and
    what begins a statement holds a word that begins a query. -/
theorem keywords_are_whole_words :
    (∀ t, holdsQueryWord t = true ↔ ∃ i j, IsRun t i j ∧ t.extract i j ∈ queryWords) ∧
    (∀ t, beginsStatement t = true ↔ ∃ j, IsRun t 0 j ∧ t.extract 0 j ∈ queryWords) ∧
    (∀ t, endsStatement t = true ↔
      t.getLast? = some ';' ∨
      ∃ i, IsRun (dropEndWhile isBlank t) i (dropEndWhile isBlank t).length ∧
        (dropEndWhile isBlank t).drop i = politeWord) ∧
    (∀ s : Statement, s.hasQueryWord = holdsQueryWord (['\n'].intercalate s.lines)) ∧
    (∀ t, beginsStatement t = true → holdsQueryWord t = true) := by
  refine ⟨fun t => holdsQueryWord_iff, fun t => beginsStatement_iff, fun t => ?_, fun s => ?_,
    fun t h => ?_⟩
  · rw [endsStatement, Bool.or_eq_true, beq_iff_eq, endsPolitely_iff]
  · rw [holdsQueryWord_intercalate, Statement.hasQueryWord]
  · exact holdsQueryWord_iff.mpr ⟨0, beginsStatement_iff.mp h⟩

/-- A keyword inside a longer word does not count, and it does not hide the one that stands behind
    it; the front of a text that begins a statement. -/
theorem keywords_are_whole_words_behind_longer :
    (IsRun ['x', 'F', 'I', 'N', 'D', ' ', 'G', 'E', 'T'] 6 9 ∧
      holdsQueryWord ['x', 'F', 'I', 'N', 'D', ' ', 'G', 'E', 'T'] = true) ∧
    (beginsStatement ['G', 'E', 'T', '-', 'x'] = true ∧
      holdsQueryWord ['G', 'E', 'T', '-', 'x'] = true) := by
  obtain ⟨hholds, -, -, -, hbegins⟩ := keywords_are_whole_words
  have hrun : IsRun ['x', 'F', 'I', 'N', 'D', ' ', 'G', 'E', 'T'] 6 9 := by decide
  have hfront : beginsStatement ['G', 'E', 'T', '-', 'x'] = true := by decide
  exact ⟨⟨hrun, (hholds _).mpr ⟨6, 9, hrun, by decide⟩⟩, hfront, hbegins _ hfront⟩

/-- An accented letter, a combining accent, a digit and a joiner all make a longer word. -/
example :
    (['é', '\u0301', '7', '\u200d'].all fun c => !holdsQueryWord ['G', 'E', 'T', c]) = true := by
  decide +kernel

end Nsql.Scan
