/-
  File:      Nsql/Proofs/Text/Runs.lean
  Subject:   Runs of word characters, and the words that are spelled by them.

  The searches for words go through a text character by character and carry the character before.
  What they find can be said of the text as a whole: a run is a stretch of word characters that no
  word character extends on either side (`IsRun`), and a word stands where a run spells it
  (`WordAt`).

  * `isWord_of_same` -- letters are word characters, in whatever case;
  * `IsRun.eq_or_apart` -- two runs are the same or lie apart;
  * `behindWord?_drop_iff` -- what is found at the front of a text is a run that spells the word;
  * `holdsWord_drop_iff` -- what is found anywhere is one too;
  * `exists_wordAt_exact_iff` -- if letters are compared exactly, the run is the word;
  * `isRun_extract_iff` -- the runs of a part that is cut out between words;
  * `wordAt_append_left`, `wordAt_append_right` -- the words of texts that are put together where no
    word goes on (`Apart`), and `holdsWord_append` for what is found in them.
-/
import Nsql.Text.Word

namespace Nsql

/-! ## 1. Letters -/

theorem isAlpha_iff {c : Char} :
    c.isAlpha = true ↔ 65 ≤ c.toNat ∧ c.toNat ≤ 90 ∨ 97 ≤ c.toNat ∧ c.toNat ≤ 122 := by
  show (decide (c.val ≥ 'A'.val ∧ c.val ≤ 'Z'.val) ||
    decide (c.val ≥ 'a'.val) && decide (c.val ≤ 'z'.val)) = true ↔ _
  simp only [Bool.or_eq_true, Bool.and_eq_true, decide_eq_true_eq, ge_iff_le,
    UInt32.le_iff_toNat_le]
  exact Iff.rfl

/-- Lowering moves the letters A to Z by 32 and leaves everything else alone. -/
theorem toNat_toLower (c : Char) :
    c.toLower.toNat = if 65 ≤ c.toNat ∧ c.toNat ≤ 90 then c.toNat + 32 else c.toNat := by
  have hupper : (c.val ≥ 'A'.val ∧ c.val ≤ 'Z'.val) ↔ 65 ≤ c.toNat ∧ c.toNat ≤ 90 := by
    rw [ge_iff_le, UInt32.le_iff_toNat_le, UInt32.le_iff_toNat_le]
    exact Iff.rfl
  unfold Char.toLower
  split
  · rename_i h
    obtain ⟨-, hle⟩ := hupper.mp h
    rw [if_pos (hupper.mp h)]
    show (c.val + 32).toNat = c.toNat + 32
    rw [UInt32.toNat_add]
    show (c.toNat + 32) % 4294967296 = c.toNat + 32
    omega
  · rename_i h
    rw [if_neg fun hc => h (hupper.mpr hc)]

theorem isWord_of_isAlpha {c : Char} (h : c.isAlpha = true) : isWord c = true := by
  have hlow : c.toNat < 0x80 := by
    have hrange := isAlpha_iff.mp h
    omega
  rw [isWord, if_pos hlow, Char.isAlphanum, h]
  rfl

/-- What counts as the same letter as one of the letters A to Z is a word character. -/
theorem isWord_of_same {letters : Letters} {w c : Char} (hw : w.isAlpha = true)
    (h : letters.same w c = true) : isWord c = true := by
  cases letters with
  | exact =>
    rw [← show w = c from beq_iff_eq.mp h]
    exact isWord_of_isAlpha hw
  | anyCase =>
    have hlower : w.toLower.toNat = c.toLower.toNat := congrArg Char.toNat (beq_iff_eq.mp h)
    rw [toNat_toLower, toNat_toLower] at hlower
    rw [isAlpha_iff] at hw
    refine isWord_of_isAlpha (isAlpha_iff.mpr ?_)
    split at hlower <;> split at hlower <;> omega

namespace Text

/-! ## 2. Runs -/

/-- The character right before a place. -/
def before? (t : Text) : Nat → Option Char
  | 0 => none
  | i + 1 => t[i]?

@[simp] theorem before?_zero (t : Text) : before? t 0 = none := rfl
@[simp] theorem before?_succ (t : Text) (i : Nat) : before? t (i + 1) = t[i]? := rfl

/-- A maximal run of word characters: nothing else stands between the two places, and no word
    character right before the first one or behind the second one. -/
structure IsRun (t : Text) (i j : Nat) : Prop where
  lt : i < j
  word : ∀ k, i ≤ k → k < j → ∃ c, t[k]? = some c ∧ isWord c = true
  edge_before : isEdge (before? t i) = true
  edge_behind : isEdge t[j]? = true

/-- A maximal run that spells a word. -/
structure WordAt (letters : Letters) (word t : Text) (i : Nat) : Prop where
  run : IsRun t i (i + word.length)
  spelled : ∀ m w, word[m]? = some w → ∃ c, t[i + m]? = some c ∧ letters.same w c = true

/-- Runs can be checked, character by character. -/
instance (t : Text) (i j : Nat) : Decidable (IsRun t i j) :=
  decidable_of_iff
    (i < j ∧ (∀ k, k < j → i ≤ k → (t[k]?.any isWord) = true) ∧
      isEdge (before? t i) = true ∧ isEdge t[j]? = true)
    ⟨fun ⟨hlt, hword, hbefore, hbehind⟩ =>
        ⟨hlt, fun k hik hkj => (Option.any_eq_true ..).mp (hword k hkj hik), hbefore, hbehind⟩,
      fun h => ⟨h.lt, fun k hkj hik => (Option.any_eq_true ..).mpr (h.word k hik hkj),
        h.edge_before, h.edge_behind⟩⟩

instance (letters : Letters) (word t : Text) (i : Nat) : Decidable (WordAt letters word t i) :=
  decidable_of_iff
    (IsRun t i (i + word.length) ∧
      ∀ m, m < word.length → (word[m]?.all fun w => t[i + m]?.any (letters.same w)) = true)
    ⟨fun ⟨hrun, hspelled⟩ => ⟨hrun, fun m w hm => by
        obtain ⟨hlt, -⟩ := List.getElem?_eq_some_iff.mp hm
        have hw := hspelled m hlt
        rw [hm] at hw
        exact (Option.any_eq_true ..).mp hw⟩,
      fun h => ⟨h.run, fun m hlt => by
        rw [List.getElem?_eq_getElem hlt]
        exact (Option.any_eq_true ..).mpr (h.spelled m _ (List.getElem?_eq_getElem hlt))⟩⟩

theorem IsRun.le_length {t : Text} {i j : Nat} (h : IsRun t i j) : j ≤ t.length := by
  have hlt := h.lt
  obtain ⟨c, hc, -⟩ := h.word (j - 1) (by omega) (by omega)
  obtain ⟨hbound, -⟩ := List.getElem?_eq_some_iff.mp hc
  omega

/-- What is no word character is not in a run. -/
theorem IsRun.ne_of_not_isWord {t : Text} {i j k : Nat} {x : Char} (h : IsRun t i j)
    (hx : isWord x = false) (hik : i ≤ k) (hkj : k < j) : t[k]? ≠ some x := by
  intro hk
  obtain ⟨c, hc, hword⟩ := h.word k hik hkj
  rw [hk] at hc
  rw [← Option.some.inj hc, hx] at hword
  cases hword

/-- A run ends before the next place that is no word character. -/
theorem IsRun.le_of_edge {t : Text} {i j k : Nat} (h : IsRun t i j) (hik : i ≤ k)
    (hk : isEdge t[k]? = true) : j ≤ k := by
  refine Nat.le_of_not_lt fun hkj => ?_
  obtain ⟨c, hc, hword⟩ := h.word k hik hkj
  rw [hc, isEdge_some, hword] at hk
  cases hk

/-- **Runs lie apart**: two runs of a text are the same, or something else stands between them. -/
theorem IsRun.eq_or_apart {t : Text} {i j i' j' : Nat} (h : IsRun t i j) (h' : IsRun t i' j') :
    i = i' ∧ j = j' ∨ j < i' ∨ j' < i := by
  -- no run begins inside another one
  have hfront : ∀ {i j i' j'}, IsRun t i j → IsRun t i' j' → i < i' → ¬ i' ≤ j := by
    intro i j i' j' h h' hlt hle
    obtain ⟨k, rfl⟩ : ∃ k, i' = k + 1 := ⟨i' - 1, by omega⟩
    obtain ⟨c, hc, hword⟩ := h.word k (by omega) hle
    have hedge := h'.edge_before
    rw [before?_succ, hc, isEdge_some, hword] at hedge
    cases hedge
  have hlt := h.lt
  have hlt' := h'.lt
  rcases Nat.lt_trichotomy i i' with hi | rfl | hi
  · have hapart := hfront h h' hi
    omega
  · have hle := h.le_of_edge (Nat.le_of_lt hlt') h'.edge_behind
    have hge := h'.le_of_edge (Nat.le_of_lt hlt) h.edge_behind
    omega
  · have hapart := hfront h' h hi
    omega

/-! ## 3. Words at the front -/

theorem getElem?_of_drop {t u : Text} {i : Nat} {c : Char} (h : t.drop i = c :: u) :
    t[i]? = some c ∧ t.drop (i + 1) = u := by
  constructor
  · rw [← List.head?_drop, h]
    rfl
  · rw [← List.tail_drop, h]
    rfl

/-- A text begins with a word where its letters follow each other. -/
theorem behind?_drop_iff {letters : Letters} {word t rest : Text} {i : Nat} :
    behind? letters word (t.drop i) = some rest ↔
      (∀ m w, word[m]? = some w → ∃ c, t[i + m]? = some c ∧ letters.same w c = true) ∧
        rest = t.drop (i + word.length) := by
  induction word generalizing i with
  | nil =>
    rw [behind?, Option.some.injEq]
    constructor
    · rintro rfl
      refine ⟨fun m w hm => ?_, rfl⟩
      cases hm
    · rintro ⟨-, rfl⟩
      rfl
  | cons w ws ih =>
    cases hu : t.drop i with
    | nil =>
      have hnone : t[i]? = none := by rw [← List.head?_drop, hu]; rfl
      rw [behind?]
      constructor
      · intro h
        cases h
      · rintro ⟨h, -⟩
        obtain ⟨c, hc, -⟩ := h 0 w rfl
        rw [Nat.add_zero, hnone] at hc
        cases hc
    | cons c u =>
      obtain ⟨hc, hdrop⟩ := getElem?_of_drop hu
      have hlen : i + (w :: ws).length = i + 1 + ws.length := by
        rw [List.length_cons]
        omega
      rw [behind?, hlen]
      split
      · rename_i hsame
        rw [← hdrop, ih]
        refine and_congr_left fun _ => ⟨fun h m w' hm => ?_, fun h m w' hm => ?_⟩
        · cases m with
          | zero =>
            obtain rfl : w = w' := Option.some.inj hm
            exact ⟨c, hc, hsame⟩
          | succ m =>
            obtain ⟨x, hx, hxsame⟩ := h m w' hm
            exact ⟨x, by rw [← hx]; congr 1; omega, hxsame⟩
        · obtain ⟨x, hx, hxsame⟩ := h (m + 1) w' hm
          exact ⟨x, by rw [← hx]; congr 1; omega, hxsame⟩
      · rename_i hsame
        constructor
        · intro h
          cases h
        · rintro ⟨h, -⟩
          obtain ⟨x, hx, hxsame⟩ := h 0 w rfl
          rw [Nat.add_zero, hc] at hx
          obtain rfl : c = x := Option.some.inj hx
          exact absurd hxsame hsame

/-- If letters are compared exactly, a text begins with a word that is its front. -/
theorem behind?_exact_iff {word t rest : Text} :
    behind? .exact word t = some rest ↔ t = word ++ rest := by
  induction word generalizing t with
  | nil => rw [behind?, Option.some.injEq, List.nil_append]
  | cons w ws ih =>
    cases t with
    | nil => simp [behind?]
    | cons c t =>
      rw [behind?, List.cons_append, List.cons.injEq]
      split
      · rename_i hsame
        rw [ih, show w = c from beq_iff_eq.mp hsame]
        exact (and_iff_right rfl).symm
      · rename_i hsame
        refine iff_of_false (fun h => by cases h) fun ⟨hc, _⟩ => hsame ?_
        rw [hc]
        exact beq_self_eq_true w

/-- Words that are written with the letters A to Z, in whatever case. -/
def Lettered (word : Text) : Prop := word ≠ [] ∧ word.all Char.isAlpha = true

instance (word : Text) : Decidable (Lettered word) := inferInstanceAs (Decidable (_ ∧ _))

/-- **A whole word at the front is a run that spells it.** -/
theorem behindWord?_drop_iff {letters : Letters} {word t rest : Text} {i : Nat}
    (hword : Lettered word) :
    behindWord? letters word (before? t i) (t.drop i) = some rest ↔
      WordAt letters word t i ∧ rest = t.drop (i + word.length) := by
  constructor
  · intro h
    unfold behindWord? at h
    split at h
    · rename_i hbefore
      split at h
      · rename_i rest' hrest
        obtain ⟨hspelled, rfl⟩ := behind?_drop_iff.mp hrest
        split at h
        · rename_i hbehind
          rw [List.head?_drop] at hbehind
          refine ⟨⟨⟨?_, fun k hik hk => ?_, hbefore, hbehind⟩, hspelled⟩, (Option.some.inj h).symm⟩
          · have hpos := List.length_pos_iff.mpr hword.1
            omega
          · -- each place holds one of the letters
            have hlt : k - i < word.length := by omega
            obtain ⟨c, hc, hsame⟩ := hspelled (k - i) _ (List.getElem?_eq_getElem hlt)
            rw [show i + (k - i) = k by omega] at hc
            have halpha := List.all_eq_true.mp hword.2 _ (List.getElem_mem hlt)
            exact ⟨c, hc, isWord_of_same halpha hsame⟩
        · cases h
      · cases h
    · cases h
  · rintro ⟨⟨hrun, hspelled⟩, rfl⟩
    have hrest := behind?_drop_iff.mpr ⟨hspelled, rfl⟩
    rw [behindWord?, if_pos hrun.edge_before, hrest]
    exact if_pos (by rw [List.head?_drop]; exact hrun.edge_behind)

/-! ## 4. Words anywhere -/

theorem startsWithWord_drop_iff {letters : Letters} {words : List Text} {t : Text} {i : Nat}
    (hwords : ∀ w ∈ words, Lettered w) :
    startsWithWord letters words (before? t i) (t.drop i) = true ↔
      ∃ w ∈ words, WordAt letters w t i := by
  rw [startsWithWord, List.any_eq_true]
  refine exists_congr fun w => and_congr_right fun hw => ?_
  rw [Option.isSome_iff_exists]
  constructor
  · rintro ⟨rest, hrest⟩
    exact ((behindWord?_drop_iff (hwords w hw)).mp hrest).1
  · intro h
    exact ⟨_, (behindWord?_drop_iff (hwords w hw)).mpr ⟨h, rfl⟩⟩

/-- **A word that is found is spelled by a run**, and every run that spells one of the words is
    found. -/
theorem holdsWord_drop_iff {letters : Letters} {words : List Text} {t : Text} {i : Nat}
    (hwords : ∀ w ∈ words, Lettered w) :
    holdsWord letters words (before? t i) (t.drop i) = true ↔
      ∃ k, i ≤ k ∧ ∃ w ∈ words, WordAt letters w t k := by
  induction hu : t.drop i generalizing i with
  | nil =>
    rw [holdsWord]
    constructor
    · intro h
      cases h
    · rintro ⟨k, hik, w, -, hk⟩
      have hlen := List.drop_eq_nil_iff.mp hu
      have hlt := hk.run.lt
      have hle := hk.run.le_length
      omega
  | cons c u ih =>
    obtain ⟨hc, hdrop⟩ := getElem?_of_drop hu
    have hnext := ih hdrop
    rw [before?_succ, hc] at hnext
    rw [holdsWord, ← hu, Bool.or_eq_true, startsWithWord_drop_iff hwords, hnext]
    constructor
    · rintro (⟨w, hw, hi⟩ | ⟨k, hik, hk⟩)
      · exact ⟨i, Nat.le_refl i, w, hw, hi⟩
      · exact ⟨k, by omega, hk⟩
    · rintro ⟨k, hik, w, hw, hk⟩
      rcases Nat.eq_or_lt_of_le hik with rfl | hlt
      · exact .inl ⟨w, hw, hk⟩
      · exact .inr ⟨k, hlt, w, hw, hk⟩

theorem holdsWord_iff {letters : Letters} {words : List Text} {t : Text}
    (hwords : ∀ w ∈ words, Lettered w) :
    holdsWord letters words none t = true ↔ ∃ k, ∃ w ∈ words, WordAt letters w t k := by
  have hfront := @holdsWord_drop_iff letters words t 0 hwords
  simpa using hfront

/-! ## 5. Parts that are cut out -/

/-- Between two places of a text stands at least one character. -/
theorem exists_take_eq {t : Text} {i j : Nat} (hij : i < j) (hj : j ≤ t.length) :
    ∃ c u, t.take j = t.take i ++ c :: u := by
  have hcut : t.take j = t.take i ++ (t.drop i).take (j - i) := by
    rw [← List.take_add, Nat.add_sub_cancel' (Nat.le_of_lt hij)]
  obtain ⟨c, u, hu⟩ : ∃ c u, t.drop i = c :: u :=
    ⟨_, _, List.drop_eq_getElem_cons (show i < t.length by omega)⟩
  rw [hu, show j - i = j - i - 1 + 1 by omega, List.take_succ_cons] at hcut
  exact ⟨c, _, hcut⟩

theorem getElem?_extract (t : Text) (s e k : Nat) :
    (t.extract s e)[k]? = if s + k < e then t[s + k]? else none := by
  rw [List.extract_eq_take_drop, List.getElem?_take, List.getElem?_drop]
  have hiff : k < e - s ↔ s + k < e := by omega
  simp only [hiff]

/-- **The runs of a part are the runs of the text that lie in it**, if the part is cut out where no
    word goes on. -/
theorem isRun_extract_iff {t : Text} {s e i j : Nat} (hs : isEdge (before? t s) = true)
    (he : isEdge t[e]? = true) :
    IsRun (t.extract s e) i j ↔ IsRun t (s + i) (s + j) ∧ s + j ≤ e := by
  have hbefore : ∀ {i}, s + i ≤ e →
      (isEdge (before? (t.extract s e) i) = true ↔ isEdge (before? t (s + i)) = true) := by
    intro i hi
    cases i with
    | zero => simpa using hs
    | succ i =>
      rw [before?_succ, getElem?_extract, if_pos (by omega), ← Nat.add_assoc, before?_succ]
  have hbehind : ∀ {j}, s + j ≤ e →
      (isEdge (t.extract s e)[j]? = true ↔ isEdge t[s + j]? = true) := by
    intro j hj
    rw [getElem?_extract]
    split
    · exact Iff.rfl
    · rw [show s + j = e by omega]
      simpa using he
  constructor
  · intro h
    have hlt := h.lt
    have hin : ∀ k, i ≤ k → k < j → ∃ c, s + k < e ∧ t[s + k]? = some c ∧ isWord c = true := by
      intro k hik hkj
      obtain ⟨c, hc, hword⟩ := h.word k hik hkj
      rw [getElem?_extract] at hc
      split at hc
      · exact ⟨c, by assumption, hc, hword⟩
      · cases hc
    obtain ⟨-, hle, -⟩ := hin (j - 1) (by omega) (by omega)
    refine ⟨⟨by omega, fun k hik hkj => ?_, (hbefore (by omega)).mp h.edge_before,
      (hbehind (by omega)).mp h.edge_behind⟩, by omega⟩
    obtain ⟨c, -, hc, hword⟩ := hin (k - s) (by omega) (by omega)
    rw [show s + (k - s) = k by omega] at hc
    exact ⟨c, hc, hword⟩
  · rintro ⟨h, hle⟩
    have hlt := h.lt
    refine ⟨by omega, fun k hik hkj => ?_, (hbefore (by omega)).mpr h.edge_before,
      (hbehind hle).mpr h.edge_behind⟩
    obtain ⟨c, hc, hword⟩ := h.word (s + k) (by omega) (by omega)
    exact ⟨c, by rw [getElem?_extract, if_pos (by omega), hc], hword⟩

/-- The same of the words that the runs spell. -/
theorem wordAt_extract_iff {letters : Letters} {word t : Text} {s e i : Nat}
    (hs : isEdge (before? t s) = true) (he : isEdge t[e]? = true) :
    WordAt letters word (t.extract s e) i ↔
      WordAt letters word t (s + i) ∧ s + i + word.length ≤ e := by
  constructor
  · rintro ⟨hrun, hspelled⟩
    rw [isRun_extract_iff hs he, ← Nat.add_assoc] at hrun
    refine ⟨⟨hrun.1, fun m w hm => ?_⟩, hrun.2⟩
    obtain ⟨c, hc, hsame⟩ := hspelled m w hm
    rw [getElem?_extract, ← Nat.add_assoc] at hc
    split at hc
    · exact ⟨c, hc, hsame⟩
    · cases hc
  · rintro ⟨⟨hrun, hspelled⟩, hle⟩
    refine ⟨(isRun_extract_iff hs he).mpr ⟨by rwa [← Nat.add_assoc], by omega⟩,
      fun m w hm => ?_⟩
    obtain ⟨c, hc, hsame⟩ := hspelled m w hm
    obtain ⟨hlt, -⟩ := List.getElem?_eq_some_iff.mp hm
    exact ⟨c, by rw [getElem?_extract, if_pos (by omega), ← Nat.add_assoc, hc], hsame⟩

/-- If letters are compared exactly, a word is spelled by the characters that it has. -/
theorem wordAt_exact_iff {word t : Text} {i : Nat} :
    WordAt .exact word t i ↔
      IsRun t i (i + word.length) ∧ t.extract i (i + word.length) = word := by
  constructor
  · intro ⟨hrun, hspelled⟩
    refine ⟨hrun, List.ext_getElem? fun k => ?_⟩
    rw [getElem?_extract]
    split
    · have hlt : k < word.length := by omega
      obtain ⟨c, hc, hsame⟩ := hspelled k _ (List.getElem?_eq_getElem hlt)
      rw [hc, List.getElem?_eq_getElem hlt, show word[k] = c from beq_iff_eq.mp hsame]
    · rw [List.getElem?_eq_none (by omega)]
  · intro ⟨hrun, hword⟩
    refine ⟨hrun, fun m w hm => ⟨w, ?_, beq_self_eq_true w⟩⟩
    obtain ⟨hlt, -⟩ := List.getElem?_eq_some_iff.mp hm
    rw [← hword, getElem?_extract, if_pos (by omega)] at hm
    exact hm

/-- **One of some words stands at a place** if the run there is one of them. -/
theorem exists_wordAt_exact_iff {words : List Text} {t : Text} {i : Nat} :
    (∃ w ∈ words, WordAt .exact w t i) ↔ ∃ j, IsRun t i j ∧ t.extract i j ∈ words := by
  constructor
  · intro ⟨w, hw, hi⟩
    obtain ⟨hrun, hword⟩ := wordAt_exact_iff.mp hi
    exact ⟨_, hrun, by rwa [hword]⟩
  · intro ⟨j, hrun, hw⟩
    have hlt := hrun.lt
    have hlen : i + (t.extract i j).length = j := by
      rw [List.extract_eq_take_drop, List.length_take, List.length_drop,
        Nat.min_eq_left (Nat.sub_le_sub_right hrun.le_length i)]
      omega
    exact ⟨_, hw, wordAt_exact_iff.mpr ⟨by rwa [hlen], by rw [hlen]⟩⟩

/-! ## 6. Texts that are put together -/

theorem getElem?_append_length (p s : Text) : (p ++ s)[p.length]? = s.head? := by
  rw [List.getElem?_append_right (Nat.le_refl _), Nat.sub_self, ← List.head?_eq_getElem?]

theorem before?_append_length (p s : Text) : before? (p ++ s) p.length = p.getLast? := by
  cases hp : p.length with
  | zero =>
    rw [List.length_eq_zero_iff.mp hp]
    rfl
  | succ n =>
    rw [before?_succ, List.getElem?_append_left (by omega), List.getLast?_eq_getElem?, hp]
    rfl

/-- No word goes on from one text into another. -/
def Apart (p s : Text) : Prop := isEdge p.getLast? = true ∨ isEdge s.head? = true

/-- What stands at the end of a run is a word character. -/
theorem IsRun.not_isEdge_getLast? {p : Text} {i : Nat} (h : IsRun p i p.length) :
    isEdge p.getLast? = false := by
  have hlt := h.lt
  obtain ⟨c, hc, hword⟩ := h.word (p.length - 1) (by omega) (by omega)
  rw [List.getLast?_eq_getElem?, hc, isEdge_some, hword]
  rfl

/-- **The runs of the first part** are those of the whole that end in it. -/
theorem isRun_append_left {p s : Text} (h : Apart p s) {i j : Nat} :
    IsRun p i j ↔ IsRun (p ++ s) i j ∧ j ≤ p.length := by
  have hget : ∀ k, k < p.length → (p ++ s)[k]? = p[k]? := fun k hk => List.getElem?_append_left hk
  have hbefore : ∀ {i}, i ≤ p.length → before? (p ++ s) i = before? p i := by
    intro i hi
    cases i with
    | zero => rfl
    | succ i => exact hget i hi
  constructor
  · intro hrun
    have hlt := hrun.lt
    have hle := hrun.le_length
    refine ⟨⟨hlt, fun k hik hkj => ?_, ?_, ?_⟩, hle⟩
    · rw [hget k (by omega)]
      exact hrun.word k hik hkj
    · rw [hbefore (by omega)]
      exact hrun.edge_before
    · rcases Nat.eq_or_lt_of_le hle with rfl | hin
      · rw [getElem?_append_length]
        refine h.resolve_left fun hedge => ?_
        rw [hrun.not_isEdge_getLast?] at hedge
        cases hedge
      · rw [hget j hin]
        exact hrun.edge_behind
  · intro ⟨hrun, hle⟩
    have hlt := hrun.lt
    refine ⟨hlt, fun k hik hkj => ?_, ?_, ?_⟩
    · rw [← hget k (by omega)]
      exact hrun.word k hik hkj
    · rw [← hbefore (by omega)]
      exact hrun.edge_before
    · rcases Nat.eq_or_lt_of_le hle with rfl | hin
      · rw [List.getElem?_eq_none (Nat.le_refl _)]
        rfl
      · rw [← hget j hin]
        exact hrun.edge_behind

/-- **The runs of the second part** stand further down in the whole. -/
theorem isRun_append_right {p s : Text} (h : Apart p s) {i j : Nat} :
    IsRun s i j ↔ IsRun (p ++ s) (p.length + i) (p.length + j) := by
  have hget : ∀ k, (p ++ s)[p.length + k]? = s[k]? := by
    intro k
    rw [List.getElem?_append_right (Nat.le_add_right _ _), Nat.add_sub_cancel_left]
  -- where a word begins the second part, none ends the first one
  have hbefore : (∃ c, s[i]? = some c ∧ isWord c = true) →
      (isEdge (before? s i) = true ↔ isEdge (before? (p ++ s) (p.length + i)) = true) := by
    intro ⟨c, hc, hword⟩
    cases i with
    | zero =>
      have hfirst : isEdge s.head? = false := by
        rw [List.head?_eq_getElem?, hc, isEdge_some, hword]
        rfl
      have hlast : isEdge p.getLast? = true :=
        h.resolve_right fun hedge => by rw [hfirst] at hedge; cases hedge
      rw [Nat.add_zero, before?_append_length, hlast]
      exact iff_of_true rfl rfl
    | succ i => rw [before?_succ, ← Nat.add_assoc, before?_succ, hget]
  constructor
  · intro hrun
    have hlt := hrun.lt
    refine ⟨by omega, fun k hik hkj => ?_, ?_, ?_⟩
    · obtain ⟨m, rfl⟩ : ∃ m, k = p.length + m := ⟨k - p.length, by omega⟩
      rw [hget]
      exact hrun.word m (by omega) (by omega)
    · exact (hbefore (hrun.word i (Nat.le_refl i) hlt)).mp hrun.edge_before
    · rw [hget]
      exact hrun.edge_behind
  · intro hrun
    have hlt := hrun.lt
    have hword : ∀ k, i ≤ k → k < j → ∃ c, s[k]? = some c ∧ isWord c = true := by
      intro k hik hkj
      rw [← hget]
      exact hrun.word (p.length + k) (by omega) (by omega)
    refine ⟨by omega, hword, ?_, ?_⟩
    · exact (hbefore (hword i (Nat.le_refl i) (by omega))).mpr hrun.edge_before
    · rw [← hget]
      exact hrun.edge_behind

/-- **The words of the first part**: those that end before the second part begins. -/
theorem wordAt_append_left {letters : Letters} {word p s : Text} {i : Nat} (h : Apart p s) :
    WordAt letters word p i ↔ WordAt letters word (p ++ s) i ∧ i + word.length ≤ p.length := by
  have hsame : ∀ {m w}, i + word.length ≤ p.length → word[m]? = some w →
      (p ++ s)[i + m]? = p[i + m]? := by
    intro m w hle hm
    obtain ⟨hlt, -⟩ := List.getElem?_eq_some_iff.mp hm
    exact List.getElem?_append_left (by omega)
  constructor
  · intro ⟨hrun, hspelled⟩
    obtain ⟨hrun', hle⟩ := (isRun_append_left h).mp hrun
    exact ⟨⟨hrun', fun m w hm => by rw [hsame hle hm]; exact hspelled m w hm⟩, hle⟩
  · intro ⟨⟨hrun, hspelled⟩, hle⟩
    exact ⟨(isRun_append_left h).mpr ⟨hrun, hle⟩,
      fun m w hm => by rw [← hsame hle hm]; exact hspelled m w hm⟩

/-- **The words of the second part** stand further down in the whole. -/
theorem wordAt_append_right {letters : Letters} {word p s : Text} {i : Nat} (h : Apart p s) :
    WordAt letters word s i ↔ WordAt letters word (p ++ s) (p.length + i) := by
  have hget : ∀ m, (p ++ s)[p.length + i + m]? = s[i + m]? := by
    intro m
    rw [List.getElem?_append_right (by omega), Nat.add_assoc, Nat.add_sub_cancel_left]
  constructor
  · intro ⟨hrun, hspelled⟩
    refine ⟨?_, fun m w hm => by rw [hget]; exact hspelled m w hm⟩
    rw [Nat.add_assoc]
    exact (isRun_append_right h).mp hrun
  · intro ⟨hrun, hspelled⟩
    refine ⟨?_, fun m w hm => by rw [← hget]; exact hspelled m w hm⟩
    rw [Nat.add_assoc] at hrun
    exact (isRun_append_right h).mpr hrun

/-- A word that begins in the first part ends in it. -/
theorem WordAt.end_le {letters : Letters} {word p s : Text} {i : Nat}
    (hw : WordAt letters word (p ++ s) i) (h : Apart p s) (hi : i < p.length) :
    i + word.length ≤ p.length := by
  rcases h with hlast | hhead
  · have hle := hw.run.le_of_edge (k := p.length - 1) (by omega) (by
      rw [List.getElem?_append_left (by omega), ← List.getLast?_eq_getElem?]
      exact hlast)
    omega
  · refine hw.run.le_of_edge (Nat.le_of_lt hi) ?_
    rw [getElem?_append_length]
    exact hhead

/-- **What is found in texts that are put together** is found in one of them. -/
theorem holdsWord_append {letters : Letters} {words : List Text} {p s : Text}
    (hwords : ∀ w ∈ words, Lettered w) (h : Apart p s) :
    holdsWord letters words none (p ++ s) =
      (holdsWord letters words none p || holdsWord letters words none s) := by
  rw [Bool.eq_iff_iff, Bool.or_eq_true, holdsWord_iff hwords, holdsWord_iff hwords,
    holdsWord_iff hwords]
  constructor
  · intro ⟨k, w, hw, hk⟩
    rcases Nat.lt_or_ge k p.length with hlt | hge
    · exact .inl ⟨k, w, hw, (wordAt_append_left h).mpr ⟨hk, hk.end_le h hlt⟩⟩
    · obtain ⟨m, rfl⟩ := Nat.exists_eq_add_of_le hge
      exact .inr ⟨m, w, hw, (wordAt_append_right h).mpr hk⟩
  · intro hor
    rcases hor with ⟨k, w, hw, hk⟩ | ⟨k, w, hw, hk⟩
    · exact ⟨k, w, hw, ((wordAt_append_left h).mp hk).1⟩
    · exact ⟨p.length + k, w, hw, (wordAt_append_right h).mp hk⟩

/-- **The run at the end of a text**: a word in letters that no word character extends. -/
theorem isRun_append_word_iff {p word : Text} (hword : Lettered word) :
    IsRun (p ++ word) p.length (p ++ word).length ↔ isEdge p.getLast? = true := by
  constructor
  · intro h
    rw [← before?_append_length p word]
    exact h.edge_before
  · intro h
    have hpos := List.length_pos_iff.mpr hword.1
    refine ⟨?_, fun k hk hlt => ?_, by rwa [before?_append_length], ?_⟩
    · rw [List.length_append]
      omega
    · rw [List.length_append] at hlt
      have hin : k - p.length < word.length := by omega
      rw [List.getElem?_append_right hk, List.getElem?_eq_getElem hin]
      exact ⟨_, rfl, isWord_of_isAlpha (List.all_eq_true.mp hword.2 _ (List.getElem_mem hin))⟩
    · rw [List.getElem?_eq_none (Nat.le_refl _)]
      rfl

end Text

end Nsql
