/-
  File:      Nsql/Proofs/Document/Views.lean
  Subject:   The lines of a document and the lines of its text.

  A document keeps the number of its rows beside its text, and it gives out a line by taking a row
  and dropping whatever break characters it ends in. A validator gets the text alone and cuts it
  into lines itself. However a document came about, the two count and read the same lines.

  * `Reached` -- the documents that come about by opening and changing;
  * `reached_attempts` -- batches that are refused do not lead out of them;
  * `exists_breaks` -- each row is a line and its break;
  * **`line_views_agree`** -- number and text of the lines are the same for both.
-/
import Nsql.Proofs.Document.Lines

namespace Nsql

/-! ## 1. Documents that are opened and changed -/

namespace Document

/-- The documents that come about by opening and changing. -/
inductive Reached : Document → Prop where
  | opened (uri language : String) (version : Int) (t : Text) :
      Reached (.ofText uri language version t)
  | changed {d d' : Document} (version : Int) (edits : List Edit) (h : Reached d)
      (hd : d.change version edits = .ok d') : Reached d'

/-- The number of rows is kept right. -/
theorem Reached.lineCount_eq {d : Document} (h : Reached d) :
    d.lineCount = (rows d.content).length := by
  cases h with
  | opened => rfl
  | changed version edits _ hd =>
    unfold change at hd
    split at hd
    · cases hd
      rfl
    · cases hd

/-- **The lines of a document are the lines of its text.** -/
theorem Reached.line?_eq {d : Document} (h : Reached d) (i : Nat) :
    d.line? i = (Text.lines d.content)[i]? := by
  rw [line?, h.lineCount_eq, ← Text.map_bare_rows, List.getElem?_map]
  split
  · rfl
  · rename_i hi
    rw [List.getElem?_eq_none (Nat.le_of_not_lt hi), Option.map_none]

theorem Reached.lineCount_pos {d : Document} (h : Reached d) : 0 < d.lineCount := by
  rw [h.lineCount_eq]
  exact List.length_pos_of_ne_nil (rows_ne_nil _)

theorem lt_lineCount_of_line? {d : Document} {i : Nat} {line : Text} (h : d.line? i = some line) :
    i < d.lineCount := by
  unfold line? at h
  split at h
  · assumption
  · cases h

/-! ## 2. Batches that may be refused -/

/-- The document after a batch of edits that takes it to a version; a batch that is refused leaves
    it as it was. -/
def attempt (d : Document) (version : Int) (edits : List Edit) : Document :=
  match d.change version edits with
  | .ok d' => d'
  | .error _ => d

/-- The document after some batches, one after the other. -/
def attempts (d : Document) (batches : List (Int × List Edit)) : Document :=
  batches.foldl (fun d batch => d.attempt batch.1 batch.2) d

theorem Reached.attempt {d : Document} (h : Reached d) (version : Int) (edits : List Edit) :
    Reached (d.attempt version edits) := by
  unfold Document.attempt
  split
  · rename_i d' hd
    exact .changed version edits h hd
  · exact h

theorem reached_attempts {d : Document} (h : Reached d) (batches : List (Int × List Edit)) :
    Reached (d.attempts batches) := by
  induction batches generalizing d with
  | nil => exact h
  | cons batch batches ih => exact ih (h.attempt batch.1 batch.2)

end Document

/-! ## 3. A row is a line and its break -/

namespace Text

/-- The three ways to break a line. -/
def lineBreaks : List Text := [['\n'], ['\r', '\n'], ['\r']]

theorem mem_lineBreaks_iff {b : Text} :
    b ∈ lineBreaks ↔ b = ['\n'] ∨ b = ['\r', '\n'] ∨ b = ['\r'] := by
  simp [lineBreaks]

/-- **Rows and breaks**: behind every line but the last one stands one break. -/
theorem exists_breaks (t : Text) :
    ∃ breaks : List Text, (∀ b ∈ breaks, b ∈ lineBreaks) ∧
      breaks.length + 1 = (lines t).length ∧
      Document.rows t = List.zipWith (· ++ ·) (lines t) (breaks ++ [[]]) := by
  fun_induction Document.rows t with
  | case1 => exact ⟨[], by simp, rfl, rfl⟩
  | case2 t ih =>
    obtain ⟨breaks, hall, hlen, hrows⟩ := ih
    refine ⟨['\r', '\n'] :: breaks, ?_, ?_, ?_⟩
    · exact List.forall_mem_cons.mpr ⟨by simp [lineBreaks], hall⟩
    · rw [lines, List.length_cons, List.length_cons, hlen]
    · rw [hrows, lines]
      rfl
  | case3 c t hpair hc ih =>
    obtain ⟨breaks, hall, hlen, hrows⟩ := ih
    have hlines : lines (c :: t) = [] :: lines t := by
      rw [lines, if_pos hc]
      exact hpair
    refine ⟨[c] :: breaks, ?_, ?_, ?_⟩
    · refine List.forall_mem_cons.mpr ⟨?_, hall⟩
      rcases hc with rfl | rfl <;> simp [lineBreaks]
    · rw [hlines, List.length_cons, List.length_cons, hlen]
    · rw [hrows, hlines]
      rfl
  | case4 c t hpair hc ih =>
    obtain ⟨breaks, hall, hlen, hrows⟩ := ih
    obtain ⟨l, ls, hl⟩ := List.exists_cons_of_ne_nil (lines_ne_nil t)
    have hlines : lines (c :: t) = (c :: l) :: ls := by
      rw [lines, if_neg hc, hl, consLine]
      exact hpair
    refine ⟨breaks, hall, ?_, ?_⟩
    · rw [hlen, hl, hlines, List.length_cons, List.length_cons]
    · -- the character comes in front of the first line, and so in front of the first row
      rw [hrows, hl, hlines]
      cases breaks with
      | nil => rfl
      | cons b breaks => rfl

end Text

/-! ## 4. The two views -/

namespace Document

/-- **The lines of a document are those of its text**, whatever batches came and whether they were
    refused: the number that is kept is the number of lines, every line is the line of the text
    with its index, and there is none exactly from that number on. The document has read the line
    off a row, which holds one break behind the line, and none behind the last line. -/
theorem line_views_agree (uri language : String) (version : Int) (t : Text)
    (batches : List (Int × List Edit)) :
    let d := (ofText uri language version t).attempts batches
    d.lineCount = (Text.lines d.content).length ∧
    (∀ i, d.line? i = (Text.lines d.content)[i]?) ∧
    (∀ i, d.line? i = none ↔ d.lineCount ≤ i) ∧
    ∃ breaks : List Text, (∀ b ∈ breaks, b ∈ Text.lineBreaks) ∧
      breaks.length + 1 = d.lineCount ∧
      rows d.content = List.zipWith (· ++ ·) (Text.lines d.content) (breaks ++ [[]]) := by
  intro d
  have hd : Reached d := reached_attempts (.opened uri language version t) batches
  have hcount : d.lineCount = (Text.lines d.content).length := by
    rw [hd.lineCount_eq, ← Text.map_bare_rows, List.length_map]
  refine ⟨hcount, hd.line?_eq, fun i => ?_, ?_⟩
  · rw [hd.line?_eq, hcount, List.getElem?_eq_none_iff]
  · rw [hcount]
    exact Text.exists_breaks d.content

/-- A batch joins the two halves of a break; the next one is refused in its second edit, and its
    first one does not count either. -/
example :
    ((ofText "u" "nsql" 1 ['a', '\r', 'b', '\n', '\r']).attempts
        [(2, [⟨some ⟨⟨1, 0⟩, ⟨1, 1⟩⟩, []⟩]),
          (3, [⟨none, []⟩, ⟨some ⟨⟨1, 0⟩, ⟨1, 0⟩⟩, ['x']⟩])]).content = ['a', '\r', '\n', '\r'] ∧
    ((ofText "u" "nsql" 1 ['a', '\r', 'b', '\n', '\r']).attempts
        [(2, [⟨some ⟨⟨1, 0⟩, ⟨1, 1⟩⟩, []⟩]),
          (3, [⟨none, []⟩, ⟨some ⟨⟨1, 0⟩, ⟨1, 0⟩⟩, ['x']⟩])]).lineCount = 3 := by
  decide

end Document

end Nsql
