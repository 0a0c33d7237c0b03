/-
  File:      Nsql/Proofs/Scan/InertLines.lean
  Subject:   Blank lines and comments are inert.

  A line that does not count is put in among other lines, anywhere. The line checks pass over it:
  what comes before it is checked as before, the statement that is being collected goes on behind
  it, and the last line that counts stays the last one. A blank line also leaves the search for
  queries alone, whether it comes to stand between queries or inside of one. So all that changes is
  the number of the lines below (`Diagnostic.pushedFrom`), as long as the lines can be counted in
  32 bits.

  * `lineFindings_insert` -- the line checks, for any line that does not count;
  * `hintAt_of_line` -- a hint goes with its line;
  * `queryFindings_blank` -- the hints, for a blank line;
  * **`uncounted_lines_are_inert`** -- both kinds of lines, at every position.
-/
import Nsql.Proofs.Document.Joins
import Nsql.Proofs.Scan.Insertion
import Nsql.Scan.Basic

namespace Nsql

/-- The same finding when a line has been put in as line `k`. -/
def Diagnostic.pushedFrom (k : Nat) (d : Diagnostic) : Diagnostic :=
  if k ≤ d.range.start.line then d.shift 1 else d

namespace Scan

open Text (IsLine WordAt lineBreaks)
open Document (place breaks Severs)

/-! ## 1. The line checks -/

theorem lastSignificant?_cons {line : Text} (h : isSignificant line = false) (i : Nat)
    (ls : List Text) : lastSignificant? i (line :: ls) = lastSignificant? (i + 1) ls := by
  rw [lastSignificant?, h]
  cases lastSignificant? (i + 1) ls <;> rfl

theorem le_of_lastSignificant? {i j : Nat} {ls : List Text} (h : lastSignificant? i ls = some j) :
    i ≤ j := by
  have hshift := lastSignificant?_shift i ls 0
  rw [Nat.zero_add, h] at hshift
  obtain ⟨k, -, rfl⟩ := Option.map_eq_some_iff.mp hshift.symm
  exact Nat.le_add_left i k

/-- **The checks of the first lines** are not touched by what follows, if the last line that counts
    is the same as far as they see it; and both go on with the same question answered. -/
theorem exists_pass_append (last last' : Option Nat) (ls : List Text) :
    ∀ (i : Nat) (asked : Bool),
      (∀ j, i ≤ j → j < i + ls.length → (last = some j ↔ last' = some j)) →
      ∃ b, ∀ rest,
        pass last i asked (ls ++ rest) =
          pass last i asked ls ++ pass last (i + ls.length) b rest ∧
        pass last' i asked (ls ++ rest) =
          pass last i asked ls ++ pass last' (i + ls.length) b rest := by
  induction ls with
  | nil => exact fun i asked _ => ⟨asked, fun rest => ⟨rfl, rfl⟩⟩
  | cons l ls ih =>
    intro i asked hagree
    have hi : last = some i ↔ last' = some i := hagree i (Nat.le_refl i) (by simp)
    have hlen : i + 1 + ls.length = i + (l :: ls).length := by
      rw [List.length_cons]
      omega
    have hrest := fun b => ih (i + 1) b fun j hij hj => hagree j (by omega) (by omega)
    rw [hlen] at hrest
    cases hsig : isSignificant l with
    | false =>
      obtain ⟨b, hb⟩ := hrest asked
      refine ⟨b, fun rest => ?_⟩
      simp only [List.cons_append, pass_cons_of_insignificant hsig]
      exact hb rest
    | true =>
      cases hend : endsStatement (Text.trimEdges l) with
      | true =>
        obtain ⟨b, hb⟩ := hrest false
        refine ⟨b, fun rest => ?_⟩
        simp only [List.cons_append, pass_cons_of_ends hsig hend, List.append_assoc]
        exact ⟨congrArg _ (hb rest).1, congrArg _ (hb rest).2⟩
      | false =>
        by_cases hlast : last = some i
        · obtain ⟨b, hb⟩ := hrest false
          refine ⟨b, fun rest => ?_⟩
          simp only [List.cons_append, pass_cons_of_last hsig hend hlast,
            pass_cons_of_last hsig hend (hi.mp hlast), List.append_assoc]
          exact ⟨by rw [(hb rest).1], by rw [(hb rest).2]⟩
        · obtain ⟨b, hb⟩ := hrest (asked || holdsQueryWord l)
          refine ⟨b, fun rest => ?_⟩
          simp only [List.cons_append, pass_cons_of_goes_on hsig hend hlast,
            pass_cons_of_goes_on hsig hend (hlast ∘ hi.mpr), List.append_assoc]
          exact ⟨congrArg _ (hb rest).1, congrArg _ (hb rest).2⟩

/-- Findings about the lines before the new one stay as they are. -/
theorem map_pushedFrom_before (last : Option Nat) (asked : Bool) (ls : List Text) :
    (pass last 0 asked ls).map (Diagnostic.pushedFrom ls.length) = pass last 0 asked ls := by
  refine (List.map_congr_left fun d hd => ?_).trans (List.map_id _)
  obtain ⟨n, line, hn, hrange⟩ := exists_line_of_mem_pass hd
  obtain ⟨hlt, -⟩ := List.getElem?_eq_some_iff.mp hn
  rw [Diagnostic.pushedFrom, if_neg, id_eq]
  rw [hrange, Nat.zero_add]
  exact Nat.not_le.mpr (Nat.lt_of_le_of_lt (low32_le n) hlt)

/-- Findings about the lines behind it go one line down. -/
theorem map_pushedFrom_behind (last : Option Nat) {k : Nat} (asked : Bool) {ls : List Text}
    (hlen : k + ls.length ≤ 4294967296) :
    (pass last k asked ls).map (Diagnostic.pushedFrom k) =
      (pass last k asked ls).map (Diagnostic.shift 1) := by
  refine List.map_congr_left fun d hd => ?_
  obtain ⟨n, line, hn, hrange⟩ := exists_line_of_mem_pass hd
  obtain ⟨hlt, -⟩ := List.getElem?_eq_some_iff.mp hn
  have hcut : low32 (k + n) = k + n := low32_eq_self (by omega)
  rw [Diagnostic.pushedFrom, if_pos]
  rw [hrange, Range.inLine, hcut]
  exact Nat.le_add_right k n

/-- **A line that does not count** changes no finding of the line checks but for its line. -/
theorem lineFindings_insert {line : Text} (hline : isSignificant line = false)
    {ls rest : List Text} (hlen : (ls ++ rest).length ≤ 4294967296) :
    lineFindings (ls ++ line :: rest) =
      (lineFindings (ls ++ rest)).map (Diagnostic.pushedFrom ls.length) := by
  have hdown := lastSignificant?_shift 1 rest ls.length
  rw [lineFindings_eq_pass, lineFindings_eq_pass, lastSignificant?_append, lastSignificant?_append,
    Nat.zero_add, lastSignificant?_cons hline, hdown]
  cases hlast : lastSignificant? ls.length rest with
  | none =>
    -- the last line that counts is before the new one, and behind it nothing counts
    have hnone := lastSignificant?_eq_none hlast
    obtain ⟨b, hb⟩ := exists_pass_append (lastSignificant? 0 ls) _ ls 0 false fun j _ _ => Iff.rfl
    simp only [Option.map_none, Option.none_or]
    rw [(hb _).1, (hb _).1, pass_cons_of_insignificant hline, pass_eq_nil hnone, pass_eq_nil hnone,
      List.append_nil, map_pushedFrom_before]
  | some n =>
    have hle := le_of_lastSignificant? hlast
    obtain ⟨b, hb⟩ := exists_pass_append (some n) (some (n + 1)) ls 0 false fun j _ hj => by
      simp only [Option.some.injEq]
      omega
    have hshift := pass_shift 1 (some n) rest ls.length b
    simp only [Option.map_some, Option.some_or] at hshift ⊢
    rw [(hb _).1, (hb _).2, Nat.zero_add, pass_cons_of_insignificant hline, hshift,
      List.map_append, map_pushedFrom_before, map_pushedFrom_behind _ _ (by simpa using hlen)]

/-! ## 2. The lines of the hints -/

/-- What a list held at a place it holds where the place has come to. -/
theorem getElem?_insertIdx_pushed (ls : List Text) (line : Text) (k n : Nat) :
    (ls.insertIdx k line)[pushed k 1 n]? = ls[n]? := by
  rw [List.getElem?_insertIdx]
  rcases Nat.lt_or_ge n k with hlt | hge
  · rw [pushed_of_lt hlt, if_pos hlt]
  · rw [pushed_of_le hge, if_neg (by omega), if_neg (by omega), Nat.add_sub_cancel]

theorem pushedFrom_missingFilter (k : Nat) {n : Nat} (hn : n < 4294967296) (width : Nat) :
    (missingFilter n width).pushedFrom k = missingFilter (pushed k 1 n) width := by
  have hcut : (missingFilter n width).range.start.line = n := low32_eq_self hn
  rw [Diagnostic.pushedFrom, hcut]
  rcases Nat.lt_or_ge n k with hlt | hge
  · rw [pushed_of_lt hlt, if_neg (Nat.not_le.mpr hlt)]
  · rw [pushed_of_le hge, if_pos hge]
    exact Diagnostic.shift_ofLine 1 _ _ _ n width

/-- **A hint goes with its line**: it keeps its width, and above the new line its number. -/
theorem hintAt_of_line {letters : Letters} {word t t' line : Text} {i i' k : Nat}
    (hlen : (Text.lines t).length ≤ 4294967296)
    (hlines : Text.lines t' = (Text.lines t).insertIdx k line) (hword : WordAt letters word t i)
    (hi : breaks (t'.take i') = pushed k 1 (breaks (t.take i))) :
    hintAt t' i' = (hintAt t i).pushedFrom k := by
  have hlt := Text.lineAtByte_lt t (Text.size (t.take i))
  rw [lineAtByte_of_wordAt hword] at hlt
  have hcount : breaks (t.take i) < 4294967296 := Nat.lt_of_lt_of_le hlt hlen
  simp only [hintAt, place, hi, pushedFrom_missingFilter k hcount, Text.lineWidth, hlines,
    getElem?_insertIdx_pushed]

/-- A word cuts the breaks of the part that it begins in. -/
theorem breaks_cut {letters : Letters} {word p s : Text} {i : Nat}
    (hi : WordAt letters word (p ++ s) i) (hlt : i < p.length) :
    breaks p = breaks (p.take i) + breaks (p.drop i) := by
  have hnot : ¬ Severs (p.take i) (p.drop i) := by
    intro ⟨_, hhead⟩
    rw [List.head?_drop, ← List.getElem?_append_left hlt] at hhead
    have hfeed : isWord '\n' = false := by decide
    exact hi.run.ne_of_not_isWord hfeed (Nat.le_refl i) hi.run.lt hhead
  rw [← Document.breaks_append hnot, List.take_append_drop]

/-- The line of a word when a line and its break are put in before another line. -/
theorem breaks_take_insert {letters : Letters} {word p x s : Text} {i : Nat}
    (hp : p = [] ∨ p.getLast? = some '\n') (hx : x.getLast? = some '\n')
    (hi : WordAt letters word (p ++ s) i) :
    breaks ((p ++ (x ++ s)).take (pushed p.length x.length i)) =
      pushed (breaks p) (breaks x) (breaks ((p ++ s).take i)) := by
  have hpcr : p.getLast? ≠ some '\r' := by
    rcases hp with rfl | hlast
    · decide
    · rw [hlast]
      decide
  rcases Nat.lt_or_ge i p.length with hlt | hge
  · have hlast : p.getLast? = some '\n' := hp.resolve_left fun hnil => by simp [hnil] at hlt
    have hbelow : breaks (p.take i) < breaks p := by
      have hmem : '\n' ∈ p.drop i := by
        refine List.mem_of_getLast? ?_
        rw [List.getLast?_drop, if_neg (Nat.not_le.mpr hlt), hlast]
      have hpos := Document.breaks_pos_of_mem hmem
      have hcut := breaks_cut hi hlt
      omega
    rw [pushed_of_lt hlt, List.take_append_of_le_length hlt.le,
      List.take_append_of_le_length hlt.le, pushed_of_lt hbelow]
  · obtain ⟨m, rfl⟩ : ∃ m, i = p.length + m := ⟨i - p.length, by omega⟩
    have hxcr : x.getLast? ≠ some '\r' := by
      rw [hx]
      decide
    rw [pushed_of_le hge, Nat.add_assoc, Nat.add_comm m, List.take_length_add_append,
      List.take_length_add_append, List.take_length_add_append,
      Document.breaks_append fun hs => hpcr hs.1, Document.breaks_append fun hs => hpcr hs.1,
      Document.breaks_append fun hs => hxcr hs.1, pushed_of_le (Nat.le_add_right _ _)]
    omega

/-! ## 3. Blank lines and the search -/

/-- The numbers of the characters that are white space. -/
def blankCodes : List Nat :=
  List.range' 0x9 5 ++ List.range' 0x2000 11 ++
    [0x20, 0x85, 0xA0, 0x1680, 0x2028, 0x2029, 0x202F, 0x205F, 0x3000]

theorem toNat_mem_blankCodes {c : Char} (h : isBlank c = true) : c.toNat ∈ blankCodes := by
  simp only [isBlank, Bool.or_eq_true, Bool.and_eq_true, decide_eq_true_eq, beq_iff_eq] at h
  simp only [blankCodes, List.mem_append, List.mem_range'_1, List.mem_cons, List.not_mem_nil,
    or_false]
  omega

/-- White space holds no word character. -/
theorem isWord_of_isBlank {c : Char} (h : isBlank c = true) : isWord c = false := by
  have hall : ∀ n ∈ blankCodes, isWord (Char.ofNat n) = false := by decide +kernel
  rw [← Char.ofNat_toNat c]
  exact hall _ (toNat_mem_blankCodes h)

/-- A blank line: white space and byte order marks. -/
def IsBlankLine (line : Text) : Prop := ∀ c ∈ line, isBlank c = true ∨ c = byteOrderMark

instance (line : Text) : Decidable (IsBlankLine line) :=
  List.decidableBAll (fun c => isBlank c = true ∨ c = byteOrderMark) line

namespace IsBlankLine

variable {line : Text}

theorem trimEdges_eq (h : IsBlankLine line) : Text.trimEdges line = [] := by
  have hdrop : line.dropWhile (fun c => isBlank c || c == byteOrderMark) = [] := by
    refine List.dropWhile_eq_nil_iff.mpr fun c hc => ?_
    rw [Bool.or_eq_true, beq_iff_eq]
    exact h c hc
  rw [Text.trimEdges, Text.trimWhile, hdrop]
  rfl

theorem isWord_eq (h : IsBlankLine line) : ∀ c ∈ line, isWord c = false := by
  intro c hc
  rcases h c hc with hblank | rfl
  · exact isWord_of_isBlank hblank
  · decide +kernel

theorem semicolon_not_mem (h : IsBlankLine line) : ';' ∉ line := by
  intro hmem
  have hno := h ';' hmem
  revert hno
  decide

/-- A line feed at either end leaves it blank. -/
theorem append_lineFeed (h : IsBlankLine line) : IsBlankLine (line ++ ['\n']) :=
  List.forall_mem_append.mpr ⟨h, List.forall_mem_singleton.mpr (by decide)⟩

theorem lineFeed_cons (h : IsBlankLine line) : IsBlankLine ('\n' :: line) :=
  List.forall_mem_cons.mpr ⟨by decide, h⟩

end IsBlankLine

theorem getLast?_flatMap_lineFeed (ls : List Text) :
    ls.flatMap (· ++ ['\n']) = [] ∨ (ls.flatMap (· ++ ['\n'])).getLast? = some '\n' := by
  rcases List.eq_nil_or_concat' ls with rfl | ⟨init, last, rfl⟩
  · exact .inl rfl
  · right
    rw [List.flatMap_append, List.flatMap_singleton, ← List.append_assoc, List.getLast?_concat]

/-- Lines with one more among them are lines. -/
theorem lines_intercalate_insert {line : Text} (hline : IsLine line) {ls rest : List Text}
    (hls : ∀ l ∈ ls ++ rest, IsLine l) :
    Text.lines (['\n'].intercalate (ls ++ line :: rest)) = ls ++ line :: rest := by
  obtain ⟨hbefore, hbehind⟩ := List.forall_mem_append.mp hls
  exact Text.lines_intercalate (by decide) (by simp)
    (List.forall_mem_append.mpr ⟨hbefore, List.forall_mem_cons.mpr ⟨hline, hbehind⟩⟩)

theorem insertIdx_length_append (ls rest : List Text) (line : Text) :
    (ls ++ rest).insertIdx ls.length line = ls ++ line :: rest := by
  induction ls with
  | nil => rfl
  | cons l ls ih => exact congrArg (l :: ·) ih

/-- The lines of a text that is put together have the new one among them. -/
theorem lines_insertIdx {line : Text} (hline : IsLine line) {ls rest : List Text}
    (hne : ls ++ rest ≠ []) (hls : ∀ l ∈ ls ++ rest, IsLine l) :
    Text.lines (['\n'].intercalate (ls ++ line :: rest)) =
      (Text.lines (['\n'].intercalate (ls ++ rest))).insertIdx ls.length line := by
  rw [lines_intercalate_insert hline hls, Text.lines_intercalate (by decide) hne hls,
    insertIdx_length_append]

/-- The hints when a blank line and its break come before another line. -/
theorem queryFindings_blank_before {line : Text} (hblank : IsBlankLine line) (hline : IsLine line)
    {ls rest : List Text} (hne : rest ≠ []) (hls : ∀ l ∈ ls ++ rest, IsLine l)
    (hlen : (ls ++ rest).length ≤ 4294967296) :
    queryFindings (['\n'].intercalate (ls ++ line :: rest)) =
      (queryFindings (['\n'].intercalate (ls ++ rest))).map (Diagnostic.pushedFrom ls.length) := by
  have hends := getLast?_flatMap_lineFeed ls
  have hx := hblank.append_lineFeed
  have houter : Text.Apart (ls.flatMap (· ++ ['\n'])) (['\n'].intercalate rest) := by
    rcases hends with hnil | hlast
    · exact .inl (by rw [hnil]; rfl)
    · exact .inl (by rw [hlast]; decide)
  have hneutral := neutral_of_not_isWord (by simp) hx.isWord_eq houter hx.semicolon_not_mem
    fun _ => hends.imp_right .inl
  have hbreaks : breaks (line ++ ['\n']) = 1 := by
    have hone : breaks ([line].flatMap (· ++ ['\n'])) = 1 :=
      Text.breaks_flatMap (List.forall_mem_singleton.mpr hline)
    rwa [List.flatMap_singleton] at hone
  have hall := List.append_ne_nil_of_right_ne_nil ls hne
  have hlines := lines_insertIdx hline hall hls
  rw [← Text.lines_intercalate (show ['\n'] ∈ lineBreaks by decide) hall hls] at hlen
  rw [Text.intercalate_append _ ls (List.cons_ne_nil _ _), List.intercalate_cons_of_ne_nil hne,
    Text.intercalate_append _ ls hne] at hlines ⊢
  rw [Text.intercalate_append _ ls hne] at hlen
  refine queryFindings_insert hneutral hx.isWord_eq fun i hi =>
    hintAt_of_line hlen hlines hi ?_
  rw [breaks_take_insert hends (by simp) hi, hbreaks,
    Text.breaks_flatMap (List.forall_mem_append.mp hls).1]

/-- The hints when a break and a blank line come at the end of the text. -/
theorem queryFindings_blank_behind {line : Text} (hblank : IsBlankLine line) (hline : IsLine line)
    {ls : List Text} (hne : ls ≠ []) (hls : ∀ l ∈ ls, IsLine l)
    (hlen : ls.length ≤ 4294967296) :
    queryFindings (['\n'].intercalate (ls ++ [line])) =
      (queryFindings (['\n'].intercalate ls)).map (Diagnostic.pushedFrom ls.length) := by
  have hx := hblank.lineFeed_cons
  have hneutral := neutral_of_not_isWord (List.cons_ne_nil _ _) hx.isWord_eq
    (show Text.Apart (['\n'].intercalate ls) [] from .inr rfl) hx.semicolon_not_mem
    fun _ => .inr (.inr rfl)
  have hjoin : ['\n'].intercalate (ls ++ [line]) =
      ['\n'].intercalate ls ++ ('\n' :: line ++ []) := by
    rw [List.append_nil]
    exact Text.intercalate_concat ['\n'] hne line
  have hcount := Text.length_lines (['\n'].intercalate ls)
  rw [← Text.lines_intercalate (show ['\n'] ∈ lineBreaks by decide) hne hls] at hlen
  have hlines := lines_insertIdx hline (List.append_ne_nil_of_left_ne_nil hne [])
    (by rwa [List.append_nil])
  rw [List.append_nil, hjoin] at hlines
  have hinsert : queryFindings (['\n'].intercalate ls ++ ('\n' :: line ++ [])) =
      (queryFindings (['\n'].intercalate ls ++ [])).map (Diagnostic.pushedFrom ls.length) := by
    refine queryFindings_insert hneutral hx.isWord_eq fun i hi => ?_
    have hlt := lt_length_of_wordAt hi
    have hcut := breaks_cut hi (by rwa [List.append_nil] at hlt)
    rw [List.append_nil (['\n'].intercalate ls)] at hlt hi ⊢
    rw [Text.lines_intercalate (by decide) hne hls] at hcount
    refine hintAt_of_line hlen hlines hi ?_
    rw [pushed_of_lt hlt, List.take_append_of_le_length hlt.le, pushed_of_lt (by omega)]
  rw [hjoin, hinsert, List.append_nil (['\n'].intercalate ls)]

/-- **The hints of a text with a blank line more**, wherever it comes to stand. -/
theorem queryFindings_blank {line : Text} (hblank : IsBlankLine line) (hline : IsLine line)
    {ls rest : List Text} (hne : ls ++ rest ≠ []) (hls : ∀ l ∈ ls ++ rest, IsLine l)
    (hlen : (ls ++ rest).length ≤ 4294967296) :
    queryFindings (['\n'].intercalate (ls ++ line :: rest)) =
      (queryFindings (['\n'].intercalate (ls ++ rest))).map (Diagnostic.pushedFrom ls.length) := by
  cases rest with
  | cons l rest => exact queryFindings_blank_before hblank hline (List.cons_ne_nil l rest) hls hlen
  | nil =>
    rw [List.append_nil] at hne hls hlen ⊢
    exact queryFindings_blank_behind hblank hline hne hls hlen

/-! ## 4. Inert lines -/

theorem isSignificant_of_commentMark {line : Text} (h : commentMark <+: Text.trimEdges line) :
    isSignificant line = false := by
  obtain ⟨t, ht⟩ := h
  have hcomment : isComment (Text.trimEdges line) = true := by
    rw [← ht]
    rfl
  simp only [isSignificant, hcomment, Bool.not_true, Bool.and_false]

/-- **Blank lines and comments are inert**: a blank line that is put in anywhere among the lines of
    a text changes no finding but for the number of its line, from there on; and neither does a
    comment, whatever is in it, as far as the line checks go. The lines are as many as can be
    counted in 32 bits, the new one among them. -/
theorem uncounted_lines_are_inert (ls : List Text) (hne : ls ≠ []) (hls : ∀ l ∈ ls, IsLine l)
    (hlen : ls.length < 4294967296) (k : Nat) (hk : k ≤ ls.length) (line : Text)
    (hline : IsLine line) :
    (IsBlankLine line →
      scan (['\n'].intercalate (ls.insertIdx k line)) =
        (scan (['\n'].intercalate ls)).map (Diagnostic.pushedFrom k)) ∧
    (commentMark <+: Text.trimEdges line →
      lineFindings (Text.lines (['\n'].intercalate (ls.insertIdx k line))) =
        (lineFindings (Text.lines (['\n'].intercalate ls))).map (Diagnostic.pushedFrom k)) := by
  obtain ⟨before, rest, rfl, rfl⟩ : ∃ before rest, ls = before ++ rest ∧ k = before.length :=
    ⟨ls.take k, ls.drop k, (List.take_append_drop k ls).symm, (List.length_take_of_le hk).symm⟩
  have hchecks : isSignificant line = false →
      lineFindings (Text.lines (['\n'].intercalate (before ++ line :: rest))) =
        (lineFindings (Text.lines (['\n'].intercalate (before ++ rest)))).map
          (Diagnostic.pushedFrom before.length) := by
    intro hsig
    rw [lines_intercalate_insert hline hls, Text.lines_intercalate (by decide) hne hls,
      lineFindings_insert hsig hlen.le]
  rw [insertIdx_length_append]
  refine ⟨fun hblank => ?_, fun hcomment => hchecks (isSignificant_of_commentMark hcomment)⟩
  have hsig : isSignificant line = false := by
    rw [isSignificant, hblank.trimEdges_eq]
    rfl
  rw [scan, scan, List.map_append, hchecks hsig, queryFindings_blank hblank hline hne hls hlen.le]

/-- A blank line inside of a query, and a comment full of marks before it. -/
theorem uncounted_lines_are_inert_in_query :
    scan "FIND x FROM\n \ufeff\ny".toList =
      (scan "FIND x FROM\ny".toList).map (Diagnostic.pushedFrom 1) ∧
    lineFindings (Text.lines " >> GET \"a;\nFIND x FROM\ny".toList) =
      (lineFindings (Text.lines "FIND x FROM\ny".toList)).map (Diagnostic.pushedFrom 0) := by
  have hblank := uncounted_lines_are_inert ["FIND x FROM".toList, "y".toList]
    (List.cons_ne_nil _ _) (by decide) (by decide) 1 (by decide) " \ufeff".toList (by decide)
  have hcomment := uncounted_lines_are_inert ["FIND x FROM".toList, "y".toList]
    (List.cons_ne_nil _ _) (by decide) (by decide) 0 (by decide) " >> GET \"a;".toList (by decide)
  exact ⟨hblank.1 (by decide), hcomment.2 (by decide)⟩

end Scan

end Nsql
