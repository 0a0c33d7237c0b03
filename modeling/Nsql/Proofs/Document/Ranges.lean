/-
  File:      Nsql/Proofs/Document/Ranges.lean
  Subject:   The places of findings in the document that they are about.

  A validator sees nothing but the text of a document, cuts it into lines of its own and measures
  them; an external parser may name any place at all. The client resolves the places through the
  rows of the document. What is found always lies on a line that the document has, as long as the
  numbers of 32 bits in which places are given are enough to count its units:

  * `exists_line_of_mem_scan` -- the built-in validator marks lines from end to end;
  * `exists_line_of_mem_diagnostics` -- the complaints of a parser are brought into a line;
  * `offsets_of_line` -- the two ends of such a stretch are places, in this order;
  * `findings_lie_in_document` -- all of this about the findings of a document.
-/
import Nsql.Engine.Basic
import Nsql.Proofs.Document.Views
import Nsql.Proofs.Scan.LinePass
import Nsql.Proofs.Scan.Queries

namespace Nsql

/-! ## 1. Places inside a line -/

namespace Document

/-- A column that a line has is resolved from the start of the line. -/
theorem offset?_of_le_width {t line : Text} {i column : Nat}
    (h : (Text.lines t)[i]? = some line) (hle : column ≤ Text.width line) :
    offset? t ⟨i, column⟩ =
      some (Text.charsWithin t (Text.width ((rows t).take i).flatten + column)) := by
  rw [← Text.map_bare_rows, List.getElem?_map] at h
  obtain ⟨row, hrow, rfl⟩ := Option.map_eq_some_iff.mp h
  have hmin : min (Text.width ((rows t).take i).flatten + column)
      (Text.width ((rows t).take i).flatten + Text.width (bare row)) =
      Text.width ((rows t).take i).flatten + column := by omega
  simp only [offset?, hrow, hmin]

end Document

namespace Text

theorem charsWithin_mono (t : Text) {m n : Nat} (h : m ≤ n) :
    charsWithin t m ≤ charsWithin t n := by
  induction t generalizing m n with
  | nil => exact Nat.le_refl _
  | cons c t ih =>
    unfold charsWithin
    split
    · exact Nat.zero_le _
    · rename_i hm
      rw [if_neg (by omega)]
      exact Nat.succ_le_succ (ih (by omega))

/-- No line is wider than its text. -/
theorem width_le_of_mem_lines {t line : Text} (h : line ∈ lines t) : width line ≤ width t := by
  fun_induction lines t generalizing line with
  | case1 => rw [List.mem_singleton.mp h]
  | case2 t ih =>
    simp only [width_cons]
    rcases List.mem_cons.mp h with rfl | h
    · exact Nat.zero_le _
    · have hle := ih h
      omega
  | case3 c t _ _ ih =>
    simp only [width_cons]
    rcases List.mem_cons.mp h with rfl | h
    · exact Nat.zero_le _
    · have hle := ih h
      omega
  | case4 c t _ _ ih =>
    obtain ⟨l, ls, hl⟩ := List.exists_cons_of_ne_nil (lines_ne_nil t)
    rw [hl] at h ih
    simp only [width_cons]
    rcases List.mem_cons.mp h with rfl | h
    · have hle := ih List.mem_cons_self
      simp only [width_cons]
      omega
    · have hle := ih (List.mem_cons_of_mem _ h)
      omega

theorem lineWidth_eq {ls : List Text} {i : Nat} {line : Text} (h : ls[i]? = some line) :
    lineWidth ls i = width line := by
  rw [lineWidth, h]

end Text

/-- **A stretch of a line has its two ends in the document**, in this order. -/
theorem offsets_of_line {t line : Text} {i start stop : Nat} (h : (Text.lines t)[i]? = some line)
    (hstart : start ≤ stop) (hstop : stop ≤ Text.width line) :
    ∃ a b, Document.offset? t ⟨i, start⟩ = some a ∧ Document.offset? t ⟨i, stop⟩ = some b ∧
      a ≤ b :=
  ⟨_, _, Document.offset?_of_le_width h (by omega), Document.offset?_of_le_width h hstop,
    Text.charsWithin_mono t (by omega)⟩

/-- A line and a column that a text has fit into as many bits as its width. -/
theorem lt_of_line {t line : Text} {i column n : Nat} (h : (Text.lines t)[i]? = some line)
    (hcolumn : column ≤ Text.width line) (ht : Text.width t < n) : i < n ∧ column < n := by
  have hi : i < (Text.lines t).length := (List.getElem?_eq_some_iff.mp h).1
  have hline := Text.width_le_of_mem_lines (List.mem_of_getElem? h)
  have hbreaks := Document.breaks_le_width t
  rw [Text.length_lines] at hi
  omega

/-- The two ends of a stretch, as numbers of 32 bits. -/
theorem lt_of_inLine {f : Diagnostic} {i start stop : Nat} (h : f.range = .inLine i start stop) :
    ∀ p ∈ [f.range.start, f.range.stop], p.line < 4294967296 ∧ p.column < 4294967296 := by
  rw [h]
  intro p hp
  rcases List.mem_cons.mp hp with rfl | hp
  · exact ⟨low32_lt i, low32_lt start⟩
  · rw [List.mem_singleton.mp hp]
    exact ⟨low32_lt i, low32_lt stop⟩

/-- **What is found within one line** of a text that can be measured in 32 bits is given as it was
    counted, and has two ends that are places, in this order. -/
theorem ends_of_inLine {t line : Text} {f : Diagnostic} {i start stop : Nat}
    (h : (Text.lines t)[i]? = some line) (hrange : f.range = .inLine i start stop)
    (hstart : start ≤ stop) (hstop : stop ≤ Text.width line) (ht : Text.width t < 4294967296) :
    f.range = ⟨⟨i, start⟩, ⟨i, stop⟩⟩ ∧
    ∃ a b, Document.offset? t f.range.start = some a ∧
      Document.offset? t f.range.stop = some b ∧ a ≤ b := by
  obtain ⟨hi, hcolumn⟩ := lt_of_line h hstop ht
  rw [hrange, Range.inLine_eq hi (by omega) hcolumn]
  exact ⟨rfl, offsets_of_line h hstart hstop⟩

/-! ## 2. What validators find -/

/-- **The built-in validator marks a line from end to end.** -/
theorem exists_line_of_mem_scan {t : Text} {f : Diagnostic} (h : f ∈ scan t) :
    ∃ i line, (Text.lines t)[i]? = some line ∧ f.range = .inLine i 0 (Text.width line) := by
  rcases List.mem_append.mp h with h | h
  · exact Scan.exists_line_of_mem_lineFindings h
  · rw [Scan.queryFindings_eq] at h
    obtain ⟨q, -, rfl⟩ := List.mem_map.mp h
    have hlt := Text.lineAtByte_lt t q.offset
    refine ⟨_, _, List.getElem?_eq_getElem hlt, ?_⟩
    rw [← Text.lineWidth_eq (List.getElem?_eq_getElem hlt)]
    rfl

namespace Report

theorem clamp_mem {low high : Int} (h : low ≤ high) (x : Int) :
    low ≤ clamp low high x ∧ clamp low high x ≤ high := by
  unfold clamp
  omega

/-- **A complaint of a parser is brought into a line**, whatever numbers it has. -/
theorem exists_line_of_record (r : Record) (t : Text) :
    ∃ i line start stop, (Text.lines t)[i]? = some line ∧
      (r.diagnostic (Text.lines t)).range = .inLine i start stop ∧ start ≤ stop ∧
      stop ≤ Text.width line := by
  have hpos : 0 < (Text.lines t).length := List.length_pos_of_ne_nil (Text.lines_ne_nil t)
  have hlt : min (max (saturate (r.line - 1)) 0).toNat ((Text.lines t).length - 1) <
      (Text.lines t).length := by omega
  obtain ⟨line, hline⟩ :
      ∃ line, (Text.lines t)[min (max (saturate (r.line - 1)) 0).toNat
        ((Text.lines t).length - 1)]? = some line := ⟨_, List.getElem?_eq_getElem hlt⟩
  have hstart := clamp_mem (Int.natCast_nonneg (low32 (Text.width line)))
    (saturate (r.column - 1))
  have hstop := clamp_mem hstart.2 (saturate (clamp 0 (low32 (Text.width line))
    (saturate (r.column - 1)) + r.span))
  have hwidth := low32_le (Text.width line)
  refine ⟨_, line, _, _, hline, rfl, ?_, ?_⟩
  · rw [Text.lineWidth_eq hline]
    omega
  · rw [Text.lineWidth_eq hline]
    omega

theorem exists_line_of_mem_diagnostics {records : List Record} {t : Text} {f : Diagnostic}
    (h : f ∈ diagnostics records t) :
    ∃ i line start stop, (Text.lines t)[i]? = some line ∧ f.range = .inLine i start stop ∧
      start ≤ stop ∧ stop ≤ Text.width line := by
  obtain ⟨r, -, rfl⟩ := List.mem_map.mp h
  exact exists_line_of_record r t

end Report

/-! ## 3. The findings of a document -/

/-- The lines that validators count are those of the document. -/
theorem Document.Reached.line_of_lines {d : Document} (hd : d.Reached) {i : Nat} {line : Text}
    (h : (Text.lines d.content)[i]? = some line) : i < d.lineCount ∧ d.line? i = some line := by
  rw [← hd.line?_eq] at h
  exact ⟨lt_lineCount_of_line? h, h⟩

/-- Whatever becomes of a parser, what is said about it starts on a line that exists. -/
theorem Document.Reached.start_lt_lineCount {d : Document} (hd : d.Reached) {host : Host}
    {timeout : Nat} {parser : Program} {f : Diagnostic}
    (hf : f ∈ parser.check host timeout d.content) : f.range.start.line < d.lineCount := by
  unfold Program.check at hf
  split at hf
  · rw [List.mem_singleton.mp hf]
    exact hd.lineCount_pos
  · split at hf
    · obtain ⟨i, line, start, stop, h, hrange, -⟩ := Report.exists_line_of_mem_diagnostics hf
      rw [hrange]
      exact Nat.lt_of_le_of_lt (low32_le i) (hd.line_of_lines h).1
    · rw [List.mem_singleton.mp hf]
      exact hd.lineCount_pos

/-- **Findings lie in the document that they are about.** Let a document have come about by
    opening and changing. A finding of the built-in validator covers a line of the document from
    end to end. A complaint of a parser, whatever its numbers, lies within one line. Both are given
    in numbers of 32 bits. If the text can be measured in them, these are the line and the columns
    themselves, and the two ends are places in the document, in this order. What is said about a
    parser that gave no report that can be read starts at the beginning of the first line, and so
    every finding of a parser starts on a line that exists. -/
theorem findings_lie_in_document (d : Document) (hd : d.Reached) :
    (∀ f ∈ scan d.content, ∃ i line, i < d.lineCount ∧ d.line? i = some line ∧
      f.range = .inLine i 0 (Text.width line) ∧
      (Text.width d.content < 4294967296 → f.range = ⟨⟨i, 0⟩, ⟨i, Text.width line⟩⟩)) ∧
    (∀ records, ∀ f ∈ Report.diagnostics records d.content, ∃ i line start stop,
      i < d.lineCount ∧ d.line? i = some line ∧ f.range = .inLine i start stop ∧
      start ≤ stop ∧ stop ≤ Text.width line ∧
      (Text.width d.content < 4294967296 → f.range = ⟨⟨i, start⟩, ⟨i, stop⟩⟩)) ∧
    (∀ records, ∀ f ∈ scan d.content ++ Report.diagnostics records d.content,
      (∀ p ∈ [f.range.start, f.range.stop], p.line < 4294967296 ∧ p.column < 4294967296) ∧
      (Text.width d.content < 4294967296 →
        ∃ a b, Document.offset? d.content f.range.start = some a ∧
          Document.offset? d.content f.range.stop = some b ∧ a ≤ b)) ∧
    (∀ failure : Failure, failure.diagnostic.range.start = ⟨0, 0⟩) ∧
    (∀ malformed : Report.Malformed, malformed.diagnostic.range.start = ⟨0, 0⟩) ∧
    (∀ (host : Host) (timeout : Nat) (parser : Program),
      ∀ f ∈ parser.check host timeout d.content, f.range.start.line < d.lineCount) := by
  refine ⟨fun f hf => ?_, fun records f hf => ?_, fun records f hf => ?_, fun _ => rfl,
    fun _ => rfl, fun host timeout parser f hf => hd.start_lt_lineCount hf⟩
  · obtain ⟨i, line, h, hrange⟩ := exists_line_of_mem_scan hf
    obtain ⟨hi, hline⟩ := hd.line_of_lines h
    exact ⟨i, line, hi, hline, hrange, fun ht =>
      (ends_of_inLine h hrange (Nat.zero_le _) (Nat.le_refl _) ht).1⟩
  · obtain ⟨i, line, start, stop, h, hrange, hstart, hstop⟩ :=
      Report.exists_line_of_mem_diagnostics hf
    obtain ⟨hi, hline⟩ := hd.line_of_lines h
    exact ⟨i, line, start, stop, hi, hline, hrange, hstart, hstop, fun ht =>
      (ends_of_inLine h hrange hstart hstop ht).1⟩
  · rcases List.mem_append.mp hf with hf | hf
    · obtain ⟨i, line, h, hrange⟩ := exists_line_of_mem_scan hf
      exact ⟨lt_of_inLine hrange, fun ht =>
        (ends_of_inLine h hrange (Nat.zero_le _) (Nat.le_refl _) ht).2⟩
    · obtain ⟨i, line, start, stop, h, hrange, hstart, hstop⟩ :=
        Report.exists_line_of_mem_diagnostics hf
      exact ⟨lt_of_inLine hrange, fun ht => (ends_of_inLine h hrange hstart hstop ht).2⟩

/-- A line break is replaced by a quote, a character of two units and another kind of break; then
    the line with the open string is marked from end to end, and a complaint with the largest and
    the smallest numbers comes to lie on the last line. -/
theorem findings_lie_in_document_edited :
    Document.Reached ⟨"u", "nsql", 2, 2, ['a', '"', '😀', '\r', '\n']⟩ ∧
    Scan.unclosedString 0 4 ∈ scan ['a', '"', '😀', '\r', '\n'] ∧
    (∃ a b, Document.offset? ['a', '"', '😀', '\r', '\n'] ⟨0, 0⟩ = some a ∧
      Document.offset? ['a', '"', '😀', '\r', '\n'] ⟨0, 4⟩ = some b ∧ a ≤ b) ∧
    ∃ i line start stop, i < 2 ∧
      Document.line? ⟨"u", "nsql", 2, 2, ['a', '"', '😀', '\r', '\n']⟩ i = some line ∧
      (Report.Record.diagnostic (Text.lines ['a', '"', '😀', '\r', '\n'])
        ⟨9223372036854775807, -9223372036854775808, some 9223372036854775807, "warning", "m"⟩).range
        = ⟨⟨i, start⟩, ⟨i, stop⟩⟩ ∧ start ≤ stop ∧ stop ≤ Text.width line := by
  have hd : Document.Reached ⟨"u", "nsql", 2, 2, ['a', '"', '😀', '\r', '\n']⟩ :=
    .changed 2 [⟨some ⟨⟨0, 1⟩, ⟨1, 0⟩⟩, ['"', '😀', '\r', '\n']⟩]
      (.opened "u" "nsql" 1 ['a', '\r']) rfl
  have hmem : Scan.unclosedString 0 4 ∈ scan ['a', '"', '😀', '\r', '\n'] := by decide +kernel
  have ht : Text.width ['a', '"', '😀', '\r', '\n'] < 4294967296 := by decide +kernel
  obtain ⟨-, hparser, hplaces, -⟩ := findings_lie_in_document _ hd
  obtain ⟨i, line, start, stop, hi, hline, -, hstart, hstop, hrange⟩ := hparser
    [⟨9223372036854775807, -9223372036854775808, some 9223372036854775807, "warning", "m"⟩]
    _ (List.mem_singleton.mpr rfl)
  exact ⟨hd, hmem, (hplaces [] _ (List.mem_append_left _ hmem)).2 ht,
    i, line, start, stop, hi, hline, hrange ht, hstart, hstop⟩

end Nsql
