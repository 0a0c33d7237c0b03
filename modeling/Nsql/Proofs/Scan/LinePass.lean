/-
  File:      Nsql/Proofs/Scan/LinePass.lean
  Subject:   The line checks, with nothing kept but what they use.

  The line checks collect statements, but all that they ever ask of a statement is whether one of
  its lines holds a word that begins a query. `pass` carries only the answer to this question.
  A statement that is given up before a line that begins a query has no such word, so the look
  ahead goes out of the picture as well.

  * `findingsWith_eq_pass`, `findingsFrom_eq_pass` -- the two give the same findings, also with
    another look ahead;
  * `pass_shift` -- the findings do not depend on where the lines are;
  * `pass_append` -- a terminated line cuts the pass in two;
  * `exists_line_of_mem_lineFindings` -- every finding covers a whole line.
-/
import Nsql.Scan.LinePass

namespace Nsql.Scan

/-! ## 1. What the checks keep -/

namespace Pending

theorem hasQueryWord_push (i : Nat) (line : Text) (p : Pending) :
    (p.push i line).hasQueryWord = (p.hasQueryWord || holdsQueryWord line) := by
  cases p with
  | idle => simp [push, hasQueryWord, statement?, Statement.hasQueryWord]
  | collecting s => simp [push, hasQueryWord, statement?, Statement.hasQueryWord]

end Pending

/-- The line checks; `asked` says whether a line of the statement that is being collected holds a
    word that begins a query. -/
def pass (last : Option Nat) : (index : Nat) → (asked : Bool) → (lines : List Text) →
    List Diagnostic
  | _, _, [] => []
  | i, asked, line :: rest =>
    if isSignificant line then
      let asked := asked || holdsQueryWord line
      let ended := endsStatement (Text.trimEdges line)
      (if asked ∧ ¬ ended ∧ last = some i then [missingTerminator i (Text.width line)] else []) ++
        (quoteFinding? i line (Text.width line)).toList ++
        pass last (i + 1) (asked && !ended && last != some i) rest
    else pass last (i + 1) asked rest

section Pass

variable {last : Option Nat} {i : Nat} {asked : Bool} {line : Text} {rest : List Text}

theorem pass_cons_of_insignificant (h : isSignificant line = false) :
    pass last i asked (line :: rest) = pass last (i + 1) asked rest := by
  simp only [pass, h, Bool.false_eq_true, if_false]

theorem pass_cons_of_ends (h : isSignificant line = true)
    (hend : endsStatement (Text.trimEdges line) = true) :
    pass last i asked (line :: rest) =
      (quoteFinding? i line (Text.width line)).toList ++ pass last (i + 1) false rest := by
  simp [pass, h, hend]

theorem pass_cons_of_goes_on (h : isSignificant line = true)
    (hend : endsStatement (Text.trimEdges line) = false) (hlast : last ≠ some i) :
    pass last i asked (line :: rest) =
      (quoteFinding? i line (Text.width line)).toList ++
        pass last (i + 1) (asked || holdsQueryWord line) rest := by
  have hne : (last != some i) = true := bne_iff_ne.mpr hlast
  simp [pass, h, hend, hlast, hne]

theorem pass_cons_of_last (h : isSignificant line = true)
    (hend : endsStatement (Text.trimEdges line) = false) (hlast : last = some i) :
    pass last i asked (line :: rest) =
      (if asked || holdsQueryWord line then [missingTerminator i (Text.width line)] else []) ++
        (quoteFinding? i line (Text.width line)).toList ++ pass last (i + 1) false rest := by
  simp [pass, h, hend, hlast]

end Pass

/-- The line checks with another look ahead: `ahead` judges the lines that follow. -/
def findingsWith (ahead : List Text → Bool) (last : Option Nat) :
    (index : Nat) → Pending → (lines : List Text) → List Diagnostic
  | _, _, [] => []
  | i, pending, line :: rest =>
    if isSignificant line then
      let pending := pending.push i line
      let quotes := (quoteFinding? i line (Text.width line)).toList
      if endsStatement (Text.trimEdges line) then
        quotes ++ findingsWith ahead last (i + 1) pending.take.2 rest
      else if last = some i ∨ (ahead rest ∧ ¬ pending.hasQueryWord) then
        let ended := pending.take
        let warning :=
          if ended.1.any Statement.hasQueryWord then [missingTerminator i (Text.width line)] else []
        warning ++ quotes ++ findingsWith ahead last (i + 1) ended.2 rest
      else quotes ++ findingsWith ahead last (i + 1) pending rest
    else findingsWith ahead last (i + 1) pending rest

/-- The look ahead of the checks is for a query that begins on the next line. -/
theorem findingsFrom_eq_findingsWith (last : Option Nat) (ls : List Text) :
    ∀ (i : Nat) (p : Pending), findingsFrom last i p ls = findingsWith nextStarts last i p ls := by
  induction ls with
  | nil => exact fun _ _ => rfl
  | cons line rest ih =>
    intro i p
    simp only [findingsFrom, findingsWith, ih]

/-- **The findings of the line checks** depend on the statement that is being collected only in
    whether it has a word that begins a query, and not on the look ahead at all. -/
theorem findingsWith_eq_pass (ahead : List Text → Bool) (last : Option Nat) (ls : List Text) :
    ∀ (i : Nat) (p : Pending), findingsWith ahead last i p ls = pass last i p.hasQueryWord ls := by
  induction ls with
  | nil => exact fun _ _ => rfl
  | cons line rest ih =>
    intro i p
    have hpush := Pending.hasQueryWord_push i line p
    cases hsig : isSignificant line with
    | false =>
      rw [pass_cons_of_insignificant hsig, ← ih]
      simp only [findingsWith, hsig, Bool.false_eq_true, if_false]
    | true =>
      cases hend : endsStatement (Text.trimEdges line) with
      | true =>
        rw [pass_cons_of_ends hsig hend, show false = Pending.idle.hasQueryWord from rfl, ← ih]
        simp only [findingsWith, hsig, hend, if_true, Pending.take]
      | false =>
        by_cases hlast : last = some i
        · rw [pass_cons_of_last hsig hend hlast, show false = Pending.idle.hasQueryWord from rfl,
            ← ih, ← hpush]
          have hany : (p.push i line).statement?.any Statement.hasQueryWord =
              (p.push i line).hasQueryWord := rfl
          simp only [findingsWith, hsig, hend, hlast, true_or, if_true, Bool.false_eq_true,
            if_false, hany, Pending.take]
        · rw [pass_cons_of_goes_on hsig hend hlast, ← hpush]
          by_cases hnext : ahead rest ∧ ¬ (p.push i line).hasQueryWord
          · -- what is given up has no word that begins a query
            have hno : (p.push i line).hasQueryWord = false := by simpa using hnext.2
            rw [hno, show false = Pending.idle.hasQueryWord from rfl, ← ih]
            have hany : (p.push i line).statement?.any Statement.hasQueryWord = false := hno
            simp only [findingsWith, hsig, hend, hnext, true_and, not_false_eq_true, or_true,
              if_true, Bool.false_eq_true, if_false, hany, Pending.take, List.nil_append]
          · rw [← ih]
            simp only [findingsWith, hsig, hend, hlast, hnext, or_false, if_true,
              Bool.false_eq_true, if_false]

theorem findingsFrom_eq_pass (last : Option Nat) (ls : List Text) (i : Nat) (p : Pending) :
    findingsFrom last i p ls = pass last i p.hasQueryWord ls := by
  rw [findingsFrom_eq_findingsWith, findingsWith_eq_pass]

/-- The findings of the line checks about some lines. -/
theorem lineFindings_eq_pass (ls : List Text) :
    lineFindings ls = pass (lastSignificant? 0 ls) 0 false ls :=
  findingsFrom_eq_pass _ ls 0 .idle

/-! ## 2. Lines further down -/

theorem quoteFinding?_shift (n i : Nat) (line : Text) (width : Nat) :
    quoteFinding? (i + n) line width = (quoteFinding? i line width).map (Diagnostic.shift n) := by
  unfold quoteFinding?
  split
  · exact congrArg some (Diagnostic.shift_ofLine n _ _ _ i width).symm
  · rfl

theorem lastSignificant?_shift (n : Nat) (ls : List Text) :
    ∀ i, lastSignificant? (i + n) ls = (lastSignificant? i ls).map (· + n) := by
  induction ls with
  | nil => exact fun _ => rfl
  | cons l ls ih =>
    intro i
    have hnext := ih (i + 1)
    rw [Nat.add_right_comm] at hnext
    unfold lastSignificant?
    rw [hnext]
    cases lastSignificant? (i + 1) ls with
    | some j => rfl
    | none => cases isSignificant l <;> rfl

/-- **The findings do not depend on where the lines are.** -/
theorem pass_shift (n : Nat) (last : Option Nat) (ls : List Text) :
    ∀ (i : Nat) (asked : Bool), pass (last.map (· + n)) (i + n) asked ls =
      (pass last i asked ls).map (Diagnostic.shift n) := by
  induction ls with
  | nil => exact fun _ _ => rfl
  | cons line rest ih =>
    intro i asked
    have hnext : ∀ b, pass (last.map (· + n)) (i + n + 1) b rest =
        (pass last (i + 1) b rest).map (Diagnostic.shift n) := by
      intro b
      rw [← ih (i + 1) b, Nat.add_right_comm]
    have hquote := congrArg Option.toList (quoteFinding?_shift n i line (Text.width line))
    rw [Option.toList_map] at hquote
    have hlast : last.map (· + n) = some (i + n) ↔ last = some i := by
      cases last <;> simp
    cases hsig : isSignificant line with
    | false => rw [pass_cons_of_insignificant hsig, pass_cons_of_insignificant hsig, hnext]
    | true =>
      cases hend : endsStatement (Text.trimEdges line) with
      | true =>
        rw [pass_cons_of_ends hsig hend, pass_cons_of_ends hsig hend, hnext, hquote,
          List.map_append]
      | false =>
        by_cases h : last = some i
        · rw [pass_cons_of_last hsig hend h, pass_cons_of_last hsig hend (hlast.mpr h), hnext,
            hquote, List.map_append, List.map_append]
          congr 2
          split
          · exact congrArg (· :: []) (Diagnostic.shift_ofLine n _ _ _ i _).symm
          · rfl
        · rw [pass_cons_of_goes_on hsig hend h, pass_cons_of_goes_on hsig hend (h ∘ hlast.mp),
            hnext, hquote, List.map_append]

/-- Lines that do not count have no findings. -/
theorem pass_eq_nil {last : Option Nat} {ls : List Text} (h : ∀ l ∈ ls, isSignificant l = false) :
    ∀ (i : Nat) (asked : Bool), pass last i asked ls = [] := by
  induction ls with
  | nil => exact fun _ _ => rfl
  | cons line rest ih =>
    intro i asked
    rw [pass_cons_of_insignificant (h line List.mem_cons_self)]
    exact ih (fun l hl => h l (List.mem_cons_of_mem _ hl)) _ _

/-! ## 3. Behind a terminated line -/

/-- The last line that counts is in the second part, or else in the first. -/
theorem lastSignificant?_append (ls rest : List Text) :
    ∀ i, lastSignificant? i (ls ++ rest) =
      (lastSignificant? (i + ls.length) rest).or (lastSignificant? i ls) := by
  induction ls with
  | nil =>
    intro i
    cases h : lastSignificant? i rest <;> simp [lastSignificant?, h]
  | cons l ls ih =>
    intro i
    have hnext := ih (i + 1)
    rw [Nat.add_right_comm, Nat.add_assoc] at hnext
    rw [List.cons_append, lastSignificant?, hnext, List.length_cons]
    cases lastSignificant? (i + (ls.length + 1)) rest with
    | some j => rfl
    | none => simp only [Option.none_or, lastSignificant?]

/-- No line that counts, no last one. -/
theorem lastSignificant?_eq_none {ls : List Text} {i : Nat} (h : lastSignificant? i ls = none) :
    ∀ l ∈ ls, isSignificant l = false := by
  induction ls generalizing i with
  | nil => exact fun l hl => absurd hl List.not_mem_nil
  | cons l ls ih =>
    rw [lastSignificant?] at h
    cases hrest : lastSignificant? (i + 1) ls with
    | some j => simp [hrest] at h
    | none =>
      intro l' hl'
      rcases List.mem_cons.mp hl' with rfl | hl'
      · simpa [hrest] using h
      · exact ih hrest l' hl'

/-- **A terminated line cuts the pass in two**, if the last line that counts is not before it. -/
theorem pass_append (last : Option Nat) {line : Text} (hsig : isSignificant line = true)
    (hend : endsStatement (Text.trimEdges line) = true) (rest ls : List Text) :
    ∀ (i : Nat) (asked : Bool), (∀ j, i ≤ j → j < i + ls.length → last ≠ some j) →
      pass last i asked (ls ++ line :: rest) =
        pass (some (i + ls.length)) i asked (ls ++ [line]) ++
          pass last (i + ls.length + 1) false rest := by
  induction ls with
  | nil =>
    intro i asked _
    rw [List.nil_append, List.nil_append, pass_cons_of_ends hsig hend, pass_cons_of_ends hsig hend]
    simp [pass]
  | cons l ls ih =>
    intro i asked hbefore
    have hlast : last ≠ some i := hbefore i (Nat.le_refl i) (by simp)
    have hself : some (i + (l :: ls).length) ≠ some i := by simp
    have hnext : ∀ b, pass last (i + 1) b (ls ++ line :: rest) =
        pass (some (i + (l :: ls).length)) (i + 1) b (ls ++ [line]) ++
          pass last (i + (l :: ls).length + 1) false rest := by
      intro b
      have hlen : i + 1 + ls.length = i + (l :: ls).length := by
        rw [List.length_cons]
        omega
      rw [ih (i + 1) b, hlen]
      intro j hij hj
      exact hbefore j (by omega) (by omega)
    rw [List.cons_append, List.cons_append]
    cases hs : isSignificant l with
    | false => rw [pass_cons_of_insignificant hs, pass_cons_of_insignificant hs, hnext]
    | true =>
      cases he : endsStatement (Text.trimEdges l) with
      | true =>
        rw [pass_cons_of_ends hs he, pass_cons_of_ends hs he, hnext, List.append_assoc]
      | false =>
        rw [pass_cons_of_goes_on hs he hlast, pass_cons_of_goes_on hs he hself, hnext,
          List.append_assoc]

/-- **The line checks on both sides of a terminated line.** -/
theorem lineFindings_append {ls : List Text} {line : Text} (hsig : isSignificant line = true)
    (hend : endsStatement (Text.trimEdges line) = true) (rest : List Text) :
    lineFindings (ls ++ [line] ++ rest) =
      lineFindings (ls ++ [line]) ++
        (lineFindings rest).map (Diagnostic.shift (ls ++ [line]).length) := by
  have hfirst : lastSignificant? 0 (ls ++ [line]) = some ls.length := by
    rw [lastSignificant?_append]
    simp [lastSignificant?, hsig]
  have hlen : (ls ++ [line]).length = ls.length + 1 := by simp
  have hshift := lastSignificant?_shift (ls.length + 1) rest 0
  rw [Nat.zero_add] at hshift
  have hwhole : lastSignificant? 0 (ls ++ [line] ++ rest) =
      ((lastSignificant? 0 rest).map (· + (ls.length + 1))).or (some ls.length) := by
    rw [lastSignificant?_append, hfirst, hlen, Nat.zero_add, hshift]
  have hcut := fun last h => pass_append last hsig hend rest ls 0 false h
  simp only [Nat.zero_add] at hcut
  rw [lineFindings_eq_pass, lineFindings_eq_pass, lineFindings_eq_pass, hwhole, hfirst, hlen,
    List.append_assoc, List.singleton_append]
  cases hrest : lastSignificant? 0 rest with
  | some k =>
    rw [Option.map_some, Option.some_or, hcut]
    · have hdown := pass_shift (ls.length + 1) (some k) rest 0 false
      rw [Option.map_some, Nat.zero_add] at hdown
      rw [hdown]
    · intro j _ hj
      simp only [ne_eq, Option.some.injEq]
      omega
  | none =>
    have hnone := lastSignificant?_eq_none hrest
    rw [Option.map_none, Option.none_or, hcut, pass_eq_nil hnone, pass_eq_nil hnone, List.map_nil]
    intro j _ hj
    simp only [ne_eq, Option.some.injEq]
    omega

/-! ## 4. The lines that findings are about -/

/-- A finding is about the whole first line, or it comes up further down. -/
theorem mem_pass_cons {last : Option Nat} {i : Nat} {asked : Bool} {line : Text} {rest : List Text}
    {f : Diagnostic} (h : f ∈ pass last i asked (line :: rest)) :
    f.range = .inLine i 0 (Text.width line) ∨ ∃ b, f ∈ pass last (i + 1) b rest := by
  unfold pass at h
  split at h
  · rcases List.mem_append.mp h with h | h
    · left
      rcases List.mem_append.mp h with h | h
      · split at h
        · rw [List.mem_singleton.mp h]
          rfl
        · exact absurd h List.not_mem_nil
      · unfold quoteFinding? at h
        split at h
        · rw [Option.toList_some, List.mem_singleton] at h
          rw [h]
          rfl
        · exact absurd h List.not_mem_nil
    · exact .inr ⟨_, h⟩
  · exact .inr ⟨_, h⟩

/-- **Every finding of the line checks covers one line from end to end.** -/
theorem exists_line_of_mem_pass {last : Option Nat} {f : Diagnostic} {ls : List Text} :
    ∀ {i : Nat} {asked : Bool}, f ∈ pass last i asked ls →
      ∃ k line, ls[k]? = some line ∧ f.range = .inLine (i + k) 0 (Text.width line) := by
  induction ls with
  | nil => exact fun h => absurd h List.not_mem_nil
  | cons line rest ih =>
    intro i asked h
    rcases mem_pass_cons h with hf | ⟨b, hf⟩
    · exact ⟨0, line, rfl, hf⟩
    · obtain ⟨k, line', hk, hrange⟩ := ih hf
      refine ⟨k + 1, line', hk, ?_⟩
      rw [hrange, Nat.add_right_comm, Nat.add_assoc]

theorem exists_line_of_mem_lineFindings {f : Diagnostic} {ls : List Text}
    (h : f ∈ lineFindings ls) :
    ∃ i line, ls[i]? = some line ∧ f.range = .inLine i 0 (Text.width line) := by
  rw [lineFindings_eq_pass] at h
  obtain ⟨k, line, hk, hrange⟩ := exists_line_of_mem_pass h
  rw [Nat.zero_add] at hrange
  exact ⟨k, line, hk, hrange⟩

end Nsql.Scan
