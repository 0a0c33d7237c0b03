/-
  File:      Nsql/Report/Record.lean
  Subject:   Records of a parser's report, and the diagnostics they become.

  A parser counts lines and columns from one, in signed integers of 64 bits; whatever it says is
  brought into the document. The arithmetic on such integers stops at their bounds. Widths are
  numbers of 32 bits.
-/
import Nsql.Diagnostic
import Nsql.Json.Token
import Nsql.Text.Lines

namespace Nsql.Report

/-- One complaint of a parser. -/
structure Record where
  line : Int
  column : Int
  length : Option Int
  severity : String
  message : String
  deriving DecidableEq, Repr

/-! ## 1. Bounded arithmetic -/

/-- Brings an integer between two bounds. -/
def clamp (low high x : Int) : Int := max low (min x high)

/-- Brings an integer into 64 bits. -/
def saturate (x : Int) : Int := clamp Json.leastInt Json.greatestInt x

/-! ## 2. From records to diagnostics -/

/-- The length of the stretch complained about: one unless more is said. -/
def Record.span (r : Record) : Int := max (r.length.getD 1) 1

/-- The severity of the diagnostic: only one word makes it less than an error. -/
def Record.level (r : Record) : Severity := if r.severity = "warning" then .warning else .error

/-- The diagnostic for a record about a document with the given lines: on the nearest line that
    exists, and within its width. -/
def Record.diagnostic (lines : List Text) (r : Record) : Diagnostic :=
  let line := min (max (saturate (r.line - 1)) 0).toNat (lines.length - 1)
  let width : Int := low32 (Text.lineWidth lines line)
  let start := clamp 0 width (saturate (r.column - 1))
  let stop := clamp start width (saturate (start + r.span))
  ⟨r.level, .inLine line start.toNat stop.toNat, r.message, some .parserReported, .parser⟩

/-- The diagnostics for the records of a report about a text. -/
def diagnostics (records : List Record) (t : Text) : List Diagnostic :=
  records.map (Record.diagnostic (Text.lines t))

end Nsql.Report
