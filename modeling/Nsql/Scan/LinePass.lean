/-
  File:      Nsql/Scan/LinePass.lean
  Subject:   The checks that go line by line: unended statements and open strings.

  Lines that count are collected into statements. A statement ends with a terminated line, with
  the last line that counts, or before a line that begins a query while nothing collected does;
  if it ended without a terminator and holds a word that begins a query, its last line gets a
  warning. Apart from that a line that counts and has an odd number of quotes gets an error.
-/
import Nsql.Diagnostic
import Nsql.Scan.Statement
import Nsql.Text.Lines

namespace Nsql.Scan

/-- Said of the last line of a statement that is not ended. -/
def missingTerminatorMessage : String := "Statement should end with semicolon (;) or 'PLEASE'"

/-- Said of a line with an open string. -/
def unclosedStringMessage : String := "Unclosed string literal"

/-- The warning that a statement which ends on this line is not ended. -/
def missingTerminator (line width : Nat) : Diagnostic :=
  .ofLine .warning .missingTerminator missingTerminatorMessage line width

/-- The error that a string is left open on this line. -/
def unclosedString (line width : Nat) : Diagnostic :=
  .ofLine .error .unclosedString unclosedStringMessage line width

/-- An open string: the line has an odd number of quotes. -/
def quoteFinding? (index : Nat) (line : Text) (width : Nat) : Option Diagnostic :=
  if line.count '"' % 2 = 1 then some (unclosedString index width) else none

/-- Index of the last line that counts; the first of `lines` has index `index`. -/
def lastSignificant? : (index : Nat) → (lines : List Text) → Option Nat
  | _, [] => none
  | i, l :: ls =>
    match lastSignificant? (i + 1) ls with
    | some j => some j
    | none => if isSignificant l then some i else none

/-- Whether a query begins on the next line. -/
def nextStarts : List Text → Bool
  | [] => false
  | l :: _ => beginsStatement (Text.trimEdges l)

/-- Goes on with `lines`, of which the first has index `index`, while `pending` is being
    collected; `last` is the last line that counts. -/
def findingsFrom (last : Option Nat) :
    (index : Nat) → Pending → (lines : List Text) → List Diagnostic
  | _, _, [] => []
  | i, pending, line :: rest =>
    if isSignificant line then
      let pending := pending.push i line
      let quotes := (quoteFinding? i line (Text.width line)).toList
      if endsStatement (Text.trimEdges line) then
        quotes ++ findingsFrom last (i + 1) pending.take.2 rest
      else if last = some i ∨ (nextStarts rest ∧ ¬ pending.hasQueryWord) then
        let ended := pending.take
        let warning :=
          if ended.1.any Statement.hasQueryWord then [missingTerminator i (Text.width line)] else []
        warning ++ quotes ++ findingsFrom last (i + 1) ended.2 rest
      else quotes ++ findingsFrom last (i + 1) pending rest
    else findingsFrom last (i + 1) pending rest

/-- The findings of the checks that go line by line. -/
def lineFindings (lines : List Text) : List Diagnostic :=
  findingsFrom (lastSignificant? 0 lines) 0 .idle lines

end Nsql.Scan
