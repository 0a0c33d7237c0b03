/-
  File:      Nsql/Proofs/Document/Hover.lean
  Subject:   What is shown at a place, and the stretch that it is about.

  A name is looked for in a line without its break, and its columns are counted from the start of
  the line. An edit resolves columns through the rows of the whole text. The two meet at the same
  characters: the stretch that is given out with a name cuts the text right before the name and
  right behind it, so an edit of that stretch replaces the name and nothing else. Both need a text
  that can be measured in 32 bits, the size of the numbers in a stretch.

  * `hover?_eq_some_iff` -- something is shown exactly where the cursor is on a name;
  * `offsets_of_name` -- the offsets of the two ends of a name, and of the cursor;
  * `change_range` -- an edit of a stretch whose ends are known;
  * **`hover_range_denotes_name`** -- what is shown, and what an edit of its stretch does.
-/
import Nsql.Proofs.Document.Names
import Nsql.Proofs.Document.Offsets
import Nsql.Proofs.Document.Ranges

namespace Nsql.Document

open Name (StandsAt)

/-! ## 1. Names in a document -/

/-- **Something is shown exactly where the cursor is on a name.** -/
theorem hover?_eq_some_iff {d : Document} {p : Position} {h : Hover} :
    d.hover? p = some h ↔ ∃ line n i, d.line? p.line = some line ∧ StandsAt n line i ∧
      n.Covers p.column ∧ h.markdown = Keyword.hoverText (String.ofList n.word) ∧
      h.range = .inLine p.line n.start n.stop := by
  have hshown : d.hover? p = some h ↔ ∃ line n, d.line? p.line = some line ∧
      Name.at? line p.column = some n ∧
      h.markdown = Keyword.hoverText (String.ofList n.word) ∧
      h.range = .inLine p.line n.start n.stop := by
    obtain ⟨markdown, range⟩ := h
    unfold hover?
    cases hline : d.line? p.line with
    | none => simp
    | some line =>
      cases hat : Name.at? line p.column with
      | none => simp [hat]
      | some n => simp [hat, eq_comm]
  -- cutting the columns twice is cutting them once
  have hcut : ∀ n : Name, Range.inLine p.line n.cut.start n.cut.stop =
      .inLine p.line n.start n.stop := by
    intro n
    simp only [Range.inLine, Name.cut, low32_low32]
  rw [hshown]
  constructor
  · rintro ⟨line, m, hline, hat, hmarkdown, hrange⟩
    obtain ⟨n, i, hi, hc, rfl⟩ := Name.at?_eq_some_iff.mp hat
    exact ⟨line, n, i, hline, hi, hc, hmarkdown, hrange.trans (hcut n)⟩
  · rintro ⟨line, n, i, hline, hi, hc, hmarkdown, hrange⟩
    exact ⟨line, n.cut, hline, Name.at?_eq_some_iff.mpr ⟨n, i, hi, hc, rfl⟩, hmarkdown,
      hrange.trans (hcut n).symm⟩

/-- A name cuts its line in three. -/
theorem append_of_standsAt {n : Name} {line : Text} {i : Nat} (h : n.StandsAt line i) :
    line.take i ++ n.word ++ line.drop (i + n.word.length) = line := by
  have hspelled := h.spelled
  rw [List.extract_eq_take_drop, Nat.add_sub_cancel_left] at hspelled
  rw [← hspelled, ← List.take_add, hspelled, List.take_append_drop]

/-- **The offsets of a name**: the place where it starts is resolved to the number of characters
    before it, the place where it ends to the number up to its end, and a place between them to an
    offset between these two. -/
theorem offsets_of_name {t line : Text} {p : Position} {n : Name} {i : Nat}
    (hline : (Text.lines t)[p.line]? = some line) (hn : n.StandsAt line i)
    (hc : n.Covers p.column) :
    ∃ before behind o, t = before ++ n.word ++ behind ∧
      offset? t ⟨p.line, n.start⟩ = some before.length ∧
      offset? t ⟨p.line, n.stop⟩ = some (before.length + n.word.length) ∧
      offset? t p = some o ∧ before.length ≤ o ∧ o ≤ before.length + n.word.length := by
  obtain ⟨full, b, rest, -, -, hstart, hcut⟩ := exists_cut_of_line hline
  have hle := hn.run.le_length
  have hat : ∀ k, k ≤ line.length →
      Text.charsWithin line (Text.width (line.take k)) = k := by
    intro k hk
    have hwidth := Text.charsWithin_width (line.take k) (line.drop k)
    rw [List.take_append_drop, List.length_take_of_le hk] at hwidth
    exact hwidth
  have hfirst : Text.charsWithin line n.start = i := by
    rw [hn.start_eq]
    exact hat i (by omega)
  have hlast : Text.charsWithin line n.stop = i + n.word.length := by
    rw [← hn.width_take_stop]
    exact hat _ hle
  have hlen : (full.flatten ++ line.take i).length = lineStart t p.line + i := by
    rw [List.length_append, hstart, List.length_take_of_le (by omega)]
  have hmono := Text.charsWithin_mono line hc.1
  have hmono' := Text.charsWithin_mono line hc.2
  refine ⟨full.flatten ++ line.take i, line.drop (i + n.word.length) ++ (b ++ rest.flatten),
    lineStart t p.line + Text.charsWithin line p.column, ?_, ?_, ?_, offset?_of_line hline, ?_, ?_⟩
  · rw [hcut]
    conv_lhs => rw [← append_of_standsAt hn]
    simp only [List.append_assoc]
  · rw [offset?_of_line (p := ⟨p.line, n.start⟩) hline, hfirst, hlen]
  · rw [offset?_of_line (p := ⟨p.line, n.stop⟩) hline, hlast, hlen, Nat.add_assoc]
  · omega
  · omega

/-! ## 2. Edits of a stretch -/

/-- An edit of a stretch whose ends are resolved puts the new text between what stands before the
    stretch and what stands behind it. -/
theorem change_range {d : Document} {range : Range} {before old behind : Text}
    (hcut : d.content = before ++ old ++ behind)
    (hstart : offset? d.content range.start = some before.length)
    (hstop : offset? d.content range.stop = some (before.length + old.length)) (version : Int)
    (new : Text) :
    d.change version [⟨some range, new⟩] =
      .ok { d with
        version := version
        lineCount := (rows (before ++ new ++ behind)).length
        content := before ++ new ++ behind } := by
  have htake : d.content.take before.length = before := by
    rw [hcut, List.append_assoc, List.take_left]
  have hdrop : d.content.drop (before.length + old.length) = behind := by
    rw [hcut, ← List.length_append, List.drop_left]
  have happly : Edit.apply ⟨some range, new⟩ d.content = .ok (before ++ new ++ behind) := by
    simp only [Edit.apply, hstart, hstop]
    rw [if_pos (Nat.le_add_right _ _), htake, hdrop]
  simp only [change, applyEdits, happly]

/-! ## 3. The stretch of what is shown -/

/-- **What is shown is about the characters that its stretch denotes.** In a document that came
    about by opening and changing, something is shown exactly where the cursor is on a name of the
    line. Then the text is what stands before the name, the name, and what stands behind it, the
    name is not empty, and the place of the cursor is resolved to an offset between its ends. If the
    text can be measured in 32 bits, the two ends of the stretch are resolved to the offsets right
    before and right behind the name, and an edit of the stretch puts any new text in its place, to
    whatever version, and leaves the rest as it was. Nothing is shown on a line that does not
    exist, and nothing past the end of a line. -/
theorem hover_range_denotes_name {d : Document} (hd : Reached d) (p : Position) :
    (∀ h, d.hover? p = some h ↔
      ∃ line n i, d.line? p.line = some line ∧ StandsAt n line i ∧ n.Covers p.column ∧
        h.markdown = Keyword.hoverText (String.ofList n.word) ∧
        h.range = .inLine p.line n.start n.stop) ∧
    (∀ h, d.hover? p = some h → ∃ line n before behind o,
      d.line? p.line = some line ∧ Name.at? line p.column = some n ∧
      h.markdown = Keyword.hoverText (String.ofList n.word) ∧
      d.content = before ++ n.word ++ behind ∧ n.word ≠ [] ∧
      offset? d.content p = some o ∧ before.length ≤ o ∧ o ≤ before.length + n.word.length ∧
      (Text.width d.content < 4294967296 →
        offset? d.content h.range.start = some before.length ∧
        offset? d.content h.range.stop = some (before.length + n.word.length) ∧
        ∀ (version : Int) (new : Text), d.change version [⟨some h.range, new⟩] =
          .ok { d with
            version := version
            lineCount := (rows (before ++ new ++ behind)).length
            content := before ++ new ++ behind })) ∧
    (d.lineCount ≤ p.line → d.hover? p = none) ∧
    (∀ line, d.line? p.line = some line → Text.width line < p.column → d.hover? p = none) := by
  refine ⟨fun h => hover?_eq_some_iff, fun h hh => ?_, fun hcount => ?_,
    fun line hline hwidth => ?_⟩
  · obtain ⟨line, n, i, hline, hi, hc, hmarkdown, hrange⟩ := hover?_eq_some_iff.mp hh
    have hat : Name.at? line p.column = some n.cut :=
      Name.at?_eq_some_iff.mpr ⟨n, i, hi, hc, rfl⟩
    have hlines : (Text.lines d.content)[p.line]? = some line := by
      rw [← hd.line?_eq]
      exact hline
    obtain ⟨before, behind, o, hcut, hstart, hstop, ho, hle, hge⟩ := offsets_of_name hlines hi hc
    have hne : n.word ≠ [] := by
      intro hnil
      have hlt := hi.run.lt
      rw [hnil, List.length_nil] at hlt
      omega
    refine ⟨line, n.cut, before, behind, o, hline, hat, hmarkdown, hcut, hne, ho, hle, hge,
      fun hwidth => ?_⟩
    have hends := hi.stop_eq
    obtain ⟨hp, hcolumn⟩ := lt_of_line hlines hi.stop_le_width hwidth
    rw [hrange, Range.inLine_eq hp (by omega) hcolumn]
    exact ⟨hstart, hstop, change_range hcut hstart hstop⟩
  · refine Option.eq_none_iff_forall_ne_some.mpr fun h hh => ?_
    obtain ⟨line, n, i, hline, -⟩ := hover?_eq_some_iff.mp hh
    have hlt := lt_lineCount_of_line? hline
    omega
  · refine Option.eq_none_iff_forall_ne_some.mpr fun h hh => ?_
    obtain ⟨line', n, i, hline', hi, hc, -⟩ := hover?_eq_some_iff.mp hh
    obtain rfl : line = line' := Option.some.inj (hline.symm.trans hline')
    have hstop := hi.stop_le_width
    have hcolumn := hc.2
    omega

/-- A name that was typed behind a character of two units, on a line behind both characters of a
    break; the cursor is behind its last letter. Nothing is shown two columns further on than the
    line goes, and nothing on the next line, which does not exist. -/
theorem hover_range_denotes_name_behind_pair :
    let d := (ofText "u" "nsql" 1 "GET a\r\n😀 b".toList).attempts
      [(2, [⟨some ⟨⟨1, 3⟩, ⟨1, 3⟩⟩, "find ".toList⟩])]
    let h : Hover := ⟨Keyword.hoverText (String.ofList ['f', 'i', 'n', 'd']), .inLine 1 3 7⟩
    Reached d ∧ d.hover? ⟨1, 7⟩ = some h ∧
    (∃ (n : Name) (before behind : Text),
      h.markdown = Keyword.hoverText (String.ofList n.word) ∧
      d.content = before ++ n.word ++ behind ∧ n.word ≠ [] ∧
      offset? d.content ⟨1, 3⟩ = some before.length ∧
      offset? d.content ⟨1, 7⟩ = some (before.length + n.word.length) ∧
      ∀ (version : Int) (new : Text), d.change version [⟨some h.range, new⟩] =
        .ok { d with
          version := version
          lineCount := (rows (before ++ new ++ behind)).length
          content := before ++ new ++ behind }) ∧
    d.hover? ⟨2, 0⟩ = none ∧ d.hover? ⟨1, 11⟩ = none := by
  intro d h
  have hd : Reached d := reached_attempts (.opened "u" "nsql" 1 _) _
  have hline : d.line? 1 = some "😀 find b".toList := by decide +kernel
  have hstands : StandsAt ⟨['f', 'i', 'n', 'd'], 3, 7⟩ "😀 find b".toList 2 :=
    ⟨by decide +kernel, by decide +kernel, by decide +kernel, by decide +kernel, by decide⟩
  have hshown : d.hover? ⟨1, 7⟩ = some h :=
    hover?_eq_some_iff.mpr ⟨_, _, 2, hline, hstands, ⟨by decide, by decide⟩, rfl, rfl⟩
  obtain ⟨line, n, before, behind, o, -, -, hmarkdown, hcut, hne, -, -, -, hplaces⟩ :=
    (hover_range_denotes_name hd ⟨1, 7⟩).2.1 h hshown
  obtain ⟨hstart, hstop, hedit⟩ := hplaces (by decide +kernel)
  refine ⟨hd, hshown, ⟨n, before, behind, hmarkdown, hcut, hne, hstart, hstop, hedit⟩, ?_, ?_⟩
  · exact (hover_range_denotes_name hd ⟨2, 0⟩).2.2.1 (by decide +kernel)
  · exact (hover_range_denotes_name hd ⟨1, 11⟩).2.2.2 _ hline (by decide +kernel)

end Nsql.Document
