/-
  File:      Nsql/Proofs/Report/Translation.lean
  Subject:   Records of a report and the places they become, in numbers without bounds.

  A parser may name any line, column and length of 64 bits. Its records are brought into the
  document by additions that stop at the bounds of 64 bits and by clamping between bounds that are
  computed themselves; the width of a line and the outcome are cut down to 32 bits. For a text that
  can be measured in 32 bits none of this shows: the outcome is the one of arithmetic without
  bounds.

  * `clamp_saturate` -- between bounds of 64 bits, stopping at 64 bits before is not noticed;
  * `Exact` -- where a record belongs;
  * `exists_exact` -- this is where it is put;
  * `clamped?_eq` -- the bounds of both clampings are in order;
  * **`translation_is_exact`** -- both of a whole report.
-/
import Mathlib.Data.List.Forall2
import Nsql.Proofs.Document.Ranges

namespace Nsql.Report

/-! ## 1. The numbers of a record -/

namespace Record

/-- The line that a record is put on. -/
def lineIn (lines : List Text) (r : Record) : Nat :=
  min (max (saturate (r.line - 1)) 0).toNat (lines.length - 1)

/-- The column where a record starts on a line of some width. -/
def startIn (width : Int) (r : Record) : Int := clamp 0 width (saturate (r.column - 1))

/-- The column where a record ends on a line of some width. -/
def stopIn (width : Int) (r : Record) : Int :=
  clamp (r.startIn width) width (saturate (r.startIn width + r.span))

theorem diagnostic_eq (lines : List Text) (r : Record) :
    r.diagnostic lines = ⟨r.level,
      .inLine (r.lineIn lines) (r.startIn (low32 (Text.lineWidth lines (r.lineIn lines)))).toNat
        (r.stopIn (low32 (Text.lineWidth lines (r.lineIn lines)))).toNat,
      r.message, some .parserReported, .parser⟩ := rfl

/-- The severity is one of two. -/
theorem level_iff (r : Record) :
    (r.level = .warning ↔ r.severity = "warning") ∧
      (r.level = .error ↔ r.severity ≠ "warning") := by
  unfold level
  split <;> simp_all

end Record

/-- **Stopping at 64 bits is not noticed** by who clamps between bounds of 64 bits. -/
theorem clamp_saturate {low high : Int} (hlow : Json.leastInt ≤ low) (h : low ≤ high)
    (hhigh : high ≤ Json.greatestInt) (x : Int) :
    clamp low high (saturate x) = clamp low high x := by
  unfold saturate clamp
  omega

section Bounds

variable {lines : List Text} {w : Int}

theorem lineIn_eq (h : (lines.length : Int) ≤ Json.greatestInt) (r : Record) :
    (r.lineIn lines : Int) = min (max (r.line - 1) 0) (lines.length - 1 : Nat) := by
  have hleast : Json.leastInt ≤ 0 := by decide
  unfold Record.lineIn saturate clamp
  omega

theorem startIn_eq (h0 : 0 ≤ w) (h : w ≤ Json.greatestInt) (r : Record) :
    r.startIn w = min (max (r.column - 1) 0) w := by
  have hleast : Json.leastInt ≤ 0 := by decide
  rw [Record.startIn, clamp_saturate hleast h0 h, clamp]
  omega

theorem startIn_mem (h0 : 0 ≤ w) (r : Record) : 0 ≤ r.startIn w ∧ r.startIn w ≤ w :=
  clamp_mem h0 _

theorem stopIn_eq (h0 : 0 ≤ w) (h : w ≤ Json.greatestInt) (r : Record) :
    r.stopIn w = min (r.startIn w + r.span) w := by
  have hleast : Json.leastInt ≤ 0 := by decide
  obtain ⟨hlow, hhigh⟩ := startIn_mem h0 r
  have hspan : 1 ≤ r.span := by
    unfold Record.span
    omega
  rw [Record.stopIn, clamp_saturate (by omega) hhigh h, clamp]
  omega

theorem stopIn_mem (h0 : 0 ≤ w) (r : Record) : r.startIn w ≤ r.stopIn w ∧ r.stopIn w ≤ w :=
  clamp_mem (startIn_mem h0 r).2 _

end Bounds

/-- A record is put on a line that exists; if the text can be measured in 32 bits, the lines can be
    counted in them, and the units of each line too. -/
theorem exists_line_lineIn {t : Text} (ht : Text.width t < 4294967296) (r : Record) :
    ∃ line, (Text.lines t)[r.lineIn (Text.lines t)]? = some line ∧
      (Text.lines t).length ≤ 4294967296 ∧ r.lineIn (Text.lines t) < 4294967296 ∧
      Text.width line < 4294967296 := by
  have hpos : 0 < (Text.lines t).length := List.length_pos_of_ne_nil (Text.lines_ne_nil t)
  have hlt : r.lineIn (Text.lines t) < (Text.lines t).length := by
    unfold Record.lineIn
    omega
  have hline := List.getElem?_eq_getElem hlt
  have hbreaks := Document.breaks_le_width t
  have hlen := Text.length_lines t
  obtain ⟨hi, hwidth⟩ := lt_of_line hline (Nat.le_refl _) ht
  exact ⟨_, hline, by omega, hi, hwidth⟩

/-! ## 2. Where a record belongs -/

/-- The diagnostic for a record, by what it says, in numbers without bounds: it is on the line
    that the record names, counted from one, or on the nearest line that exists; it starts at the
    column that the record names, also counted from one, and is as long as the record says, at
    least one unit, but it does not leave the line. -/
structure Exact (t line : Text) (r : Record) (d : Diagnostic) : Prop where
  line_eq : (Text.lines t)[d.range.start.line]? = some line
  startLine : (d.range.start.line : Int) = min (max (r.line - 1) 0) (Text.lastLine t)
  stopLine : d.range.stop.line = d.range.start.line
  startColumn : (d.range.start.column : Int) = min (max (r.column - 1) 0) (Text.width line)
  stopColumn : (d.range.stop.column : Int) =
    min (d.range.start.column + max (r.length.getD 1) 1) (Text.width line)
  warning_iff : d.severity = .warning ↔ r.severity = "warning"
  error_iff : d.severity = .error ↔ r.severity ≠ "warning"
  message : d.message = r.message
  origin : d.code = some .parserReported ∧ d.source = .parser

/-- There is nothing between the two ends exactly if they are at the end of the line. -/
theorem Exact.empty_iff {t line : Text} {r : Record} {d : Diagnostic} (h : Exact t line r d) :
    d.range.start = d.range.stop ↔ d.range.start.column = Text.width line := by
  have hstart := h.startColumn
  have hstop := h.stopColumn
  constructor
  · intro heq
    rw [← heq] at hstop
    omega
  · intro hend
    have hcolumn : d.range.start.column = d.range.stop.column := by omega
    calc d.range.start = ⟨d.range.start.line, d.range.start.column⟩ := rfl
      _ = ⟨d.range.stop.line, d.range.stop.column⟩ := by rw [h.stopLine, hcolumn]
      _ = d.range.stop := rfl

/-- **Every record is put where it belongs.** -/
theorem exists_exact {t : Text} (ht : Text.width t < 4294967296) (r : Record) :
    ∃ line, Exact t line r (r.diagnostic (Text.lines t)) := by
  obtain ⟨line, hline, hlen, hi, hwidth⟩ := exists_line_lineIn ht r
  have hgreatest : (4294967296 : Int) ≤ Json.greatestInt := by decide
  have h0 : (0 : Int) ≤ Text.width line := Int.natCast_nonneg _
  have hw : (Text.width line : Int) ≤ Json.greatestInt := by omega
  have hstart := startIn_mem h0 r
  have hstop := stopIn_mem h0 r
  have hd := Record.diagnostic_eq (Text.lines t) r
  rw [Text.lineWidth_eq hline, low32_eq_self hwidth,
    Range.inLine_eq hi (by omega) (by omega)] at hd
  refine ⟨line, ?_⟩
  rw [hd]
  exact {
    line_eq := hline
    startLine := lineIn_eq (by omega) r
    stopLine := rfl
    startColumn := by
      show ((r.startIn (Text.width line)).toNat : Int) = _
      rw [Int.toNat_of_nonneg hstart.1, startIn_eq h0 hw]
    stopColumn := by
      show ((r.stopIn (Text.width line)).toNat : Int) =
        min ((r.startIn (Text.width line)).toNat + r.span) (Text.width line)
      rw [Int.toNat_of_nonneg (by omega), Int.toNat_of_nonneg hstart.1, stopIn_eq h0 hw]
    warning_iff := r.level_iff.1
    error_iff := r.level_iff.2
    message := rfl
    origin := ⟨rfl, rfl⟩ }

/-! ## 3. The bounds of the clampings -/

/-- Brings an integer between two bounds; there is no outcome if they are not in order. -/
def clamp? (low high x : Int) : Option Int := if low ≤ high then some (clamp low high x) else none

/-- The diagnostic for a record, made with clampings that may have no outcome. -/
def Record.clamped? (lines : List Text) (r : Record) : Option Diagnostic :=
  let width := low32 (Text.lineWidth lines (r.lineIn lines))
  (clamp? 0 width (saturate (r.column - 1))).bind fun start =>
    (clamp? start width (saturate (start + r.span))).map fun stop =>
      ⟨r.level, .inLine (r.lineIn lines) start.toNat stop.toNat, r.message, some .parserReported,
        .parser⟩

/-- **The bounds of both clampings are in order**, whatever the text and the record. -/
theorem clamped?_eq (lines : List Text) (r : Record) :
    r.clamped? lines = some (r.diagnostic lines) := by
  have h0 : (0 : Int) ≤ low32 (Text.lineWidth lines (r.lineIn lines)) := Int.natCast_nonneg _
  obtain ⟨-, hstart⟩ := startIn_mem h0 r
  have hfirst : clamp? 0 (low32 (Text.lineWidth lines (r.lineIn lines)))
      (saturate (r.column - 1)) =
      some (r.startIn (low32 (Text.lineWidth lines (r.lineIn lines)))) := if_pos h0
  have hsecond : clamp? (r.startIn (low32 (Text.lineWidth lines (r.lineIn lines))))
      (low32 (Text.lineWidth lines (r.lineIn lines)))
      (saturate (r.startIn (low32 (Text.lineWidth lines (r.lineIn lines))) + r.span)) =
      some (r.stopIn (low32 (Text.lineWidth lines (r.lineIn lines)))) := if_pos hstart
  rw [Record.diagnostic_eq, Record.clamped?]
  simp only [hfirst, hsecond, Option.bind_some, Option.map_some]

/-! ## 4. Reports -/

/-- **Reports are translated exactly.** Let a text be measured in 32 bits. The records of a report,
    whatever numbers they have, become one diagnostic each, in the same order, and each is where
    arithmetic without bounds puts it; there is nothing between its ends exactly if it starts at
    the end of its line. The bounds of both clampings are in order, so each of them has an
    outcome. -/
theorem translation_is_exact (t : Text) (ht : Text.width t < 4294967296) (records : List Record) :
    List.Forall₂ (fun r d => ∃ line, Exact t line r d ∧
        (d.range.start = d.range.stop ↔ d.range.start.column = Text.width line))
      records (diagnostics records t) ∧
    records.map (Record.clamped? (Text.lines t)) = (diagnostics records t).map some := by
  constructor
  · unfold diagnostics
    rw [List.forall₂_map_right_iff, List.forall₂_same]
    intro r _
    obtain ⟨line, hexact⟩ := exists_exact ht r
    exact ⟨line, hexact, hexact.empty_iff⟩
  · unfold diagnostics
    rw [List.map_map]
    exact List.map_congr_left fun r _ => clamped?_eq (Text.lines t) r

/-- The largest and the smallest numbers of 64 bits: the first record comes to lie on the last
    line from end to end, the second one at the end of the first line, with nothing between its
    ends and as an error. -/
theorem translation_is_exact_at_the_bounds :
    let t : Text := ['a', '😀', '\n', 'b']
    let r : Record := ⟨Json.greatestInt, Json.leastInt, some Json.greatestInt, "warning", "m"⟩
    let s : Record := ⟨Json.leastInt, Json.greatestInt, none, "Warning", "n"⟩
    Text.width t < 4294967296 ∧
    diagnostics [r, s] t = [⟨.warning, .inLine 1 0 1, "m", some .parserReported, .parser⟩,
      ⟨.error, .inLine 0 3 3, "n", some .parserReported, .parser⟩] ∧
    (∃ line, Exact t line r ⟨.warning, .inLine 1 0 1, "m", some .parserReported, .parser⟩) ∧
    [r.clamped? (Text.lines t), s.clamped? (Text.lines t)] = (diagnostics [r, s] t).map some := by
  intro t r s
  have ht : Text.width t < 4294967296 := by decide
  have hall : diagnostics [r, s] t = [⟨.warning, .inLine 1 0 1, "m", some .parserReported, .parser⟩,
      ⟨.error, .inLine 0 3 3, "n", some .parserReported, .parser⟩] := by decide
  obtain ⟨hexact, hclamped⟩ := translation_is_exact t ht [r, s]
  rw [hall] at hexact
  obtain ⟨⟨line, hline, -⟩, -⟩ := List.forall₂_cons.mp hexact
  exact ⟨ht, hall, ⟨line, hline⟩, hclamped⟩

end Nsql.Report
