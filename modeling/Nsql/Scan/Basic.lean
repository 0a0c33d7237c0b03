/-
  File:      Nsql/Scan/Basic.lean
  Subject:   The built-in validator.

  It needs nothing but the text: first the checks that go line by line, then the hints about
  queries without a filter.
-/
import Nsql.Scan.LinePass
import Nsql.Scan.Query

namespace Nsql

/-- The findings of the built-in validator. -/
def scan (t : Text) : List Diagnostic := Scan.lineFindings (Text.lines t) ++ Scan.queryFindings t

end Nsql
