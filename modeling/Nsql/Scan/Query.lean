/-
  File:      Nsql/Scan/Query.lean
  Subject:   Queries that look for records, and the hint to filter them.

  A query starts with the word FIND, has the word FROM later on the same line, and goes on to the
  first semicolon behind the last such FROM, or to the end of the text. Queries are taken from
  left to right; one that has begun covers everything up to its end. A query without a word that
  filters gets a hint on the line where it starts.
-/
import Nsql.Diagnostic
import Nsql.Text.Lines
import Nsql.Text.Word

namespace Nsql.Scan

/-! ## 1. Where queries are -/

/-- The word that opens a query for records. -/
def findWord : Text := ['F', 'I', 'N', 'D']

/-- The word that names where the records come from. -/
def fromWord : Text := ['F', 'R', 'O', 'M']

/-- The words that filter. -/
def filterWords : List Text :=
  [['W', 'H', 'E', 'R', 'E'], ['T', 'H', 'A', 'T'], ['W', 'H', 'I', 'C', 'H'], ['I', 'F'],
    ['W', 'H', 'E', 'N']]

/-- The text behind the last whole word FROM that starts before the next line feed. -/
def behindLastFrom? : (before : Option Char) → Text → Option Text
  | _, [] => none
  | before, c :: t =>
    if c = '\n' then none
    else
      match behindLastFrom? (some c) t with
      | some rest => some rest
      | none => Text.behindWord? .anyCase fromWord before (c :: t)

/-- The query at the front of a text: everything before the semicolon that ends it. -/
def queryAt? (before : Option Char) (t : Text) : Option Text :=
  match Text.behindWord? .anyCase findWord before t with
  | none => none
  | some rest =>
    match behindLastFrom? findWord.getLast? rest with
    | none => none
    | some rest => some (t.take (t.length - (rest.dropWhile (· ≠ ';')).length))

/-- A query and the number of bytes before it. -/
structure Query where
  offset : Nat
  body : Text
  deriving DecidableEq, Repr

/-- The queries of a text that starts at byte `offset` behind the character `before`, after the
    first `skip` characters, which belong to a query already. -/
def queriesFrom : (skip offset : Nat) → (before : Option Char) → Text → List Query
  | _, _, _, [] => []
  | skip + 1, offset, _, c :: t => queriesFrom skip (offset + bytesOf c) (some c) t
  | 0, offset, before, c :: t =>
    match queryAt? before (c :: t) with
    | some body => ⟨offset, body⟩ :: queriesFrom (body.length - 1) (offset + bytesOf c) (some c) t
    | none => queriesFrom 0 (offset + bytesOf c) (some c) t

/-- The queries of a text, from left to right. -/
def queries (t : Text) : List Query := queriesFrom 0 0 none t

/-! ## 2. The hint -/

/-- Said of the line where a query without a filter starts. -/
def missingFilterMessage : String := "Consider adding a WHERE clause to filter results"

/-- Whether a query holds a word that filters. -/
def Query.isFiltered (q : Query) : Bool := Text.holdsWord .anyCase filterWords none q.body

/-- The hint that a query on this line has no filter. -/
def missingFilter (line width : Nat) : Diagnostic :=
  .ofLine .information .missingFilter missingFilterMessage line width

/-- The hints for the queries without a filter. -/
def queryFindings (t : Text) : List Diagnostic :=
  ((queries t).filter fun q => !q.isFiltered).map fun q =>
    let line := Text.lineAtByte t q.offset
    missingFilter line (Text.lineWidth (Text.lines t) line)

end Nsql.Scan
