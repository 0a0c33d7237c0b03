/-
  File:      Nsql/Sample/Expectation.lean
  Subject:   What one may expect of a list of diagnostics, and the complaint if it is not so.
-/
import Nsql.Diagnostic
import Nsql.Text.Quoted

namespace Nsql

/-- Something that is expected of diagnostics. -/
inductive Expectation where
  /-- These severities, in order. -/
  | severities (expected : List Severity)
  /-- A diagnostic with this message. -/
  | hasMessage (message : String)
  /-- Of the first diagnostic, this range. -/
  | range (expected : Range)
  /-- No errors. -/
  | noErrors
  deriving DecidableEq, Repr

/-- How a list of diagnostics begins when it is listed one line each. -/
def listHead (ds : List Diagnostic) : String := if ds.isEmpty then "[]" else "["

/-- How the comparison of two values that differ is reported. -/
def unequal (what : String) : String := "assertion `left == right` failed: " ++ what

/-- A text up to its first line break. -/
def firstLine : List Char → List Char
  | [] => []
  | '\r' :: '\n' :: _ => []
  | c :: t => if c = '\n' then [] else c :: firstLine t

/-- The beginning of the complaint, if the diagnostics are not as expected. Of no diagnostic no
    range can be wrong. -/
def Expectation.complaintText? (ds : List Diagnostic) : Expectation → Option String
  | .severities expected =>
    if ds.map Diagnostic.severity = expected then none
    else some (unequal ("Severity mismatch, diagnostics: " ++ listHead ds))
  | .hasMessage message =>
    if ds.any fun d => d.message == message then none
    else
      some ("No diagnostic with message '" ++ message ++ "', found " ++
        Quoted.listText (ds.map Diagnostic.message))
  | .range expected =>
    match ds with
    | [] => none
    | d :: _ =>
      if d.range = expected then none
      else some (unequal ("Range mismatch for '" ++ d.message ++ "'"))
  | .noErrors =>
    let errors := ds.filter fun d => d.severity == .error
    if errors.isEmpty then none else some ("Unexpected errors: " ++ listHead errors)

/-- The first line of the complaint, if the diagnostics are not as expected. -/
def Expectation.complaint? (e : Expectation) (ds : List Diagnostic) : Option String :=
  (e.complaintText? ds).map fun s => String.ofList (firstLine s.toList)

end Nsql
