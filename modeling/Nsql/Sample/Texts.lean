/-
  File:      Nsql/Sample/Texts.lean
  Subject:   Sample documents, and sample reports of a parser.
-/

namespace Nsql.Sample

/-- Statements that end, one with a comment behind it. -/
def terminatedWithComment : String := "ASK something; >> comment\nTELL something2;"

/-- A query with a filter. -/
def filteredFind : String := "FIND users FROM accounts WHERE age > 21;"

/-- A statement that ends with PLEASE. -/
def politeShow : String := "SHOW all orders PLEASE"

/-- Statements, comments and blank lines. -/
def mixedDocument : String :=
  ">> Monthly report\nFIND orders FROM sales WHERE total > 100;\n\n" ++
    "TELL ADD \"audit\" TO log;\nGET balance FOR account 42 PLEASE"

/-- A query without a filter that does not end. -/
def unfilteredFind : String := "FIND users FROM accounts"

/-- A statement with a string that is not closed. -/
def unclosedString : String := "TELL ADD \"unterminated"

/-- Two lines without findings. -/
def twoLines : String := "ASK a;\nTELL ADD thing;"

/-- A report of one error on the second line. -/
def errorReport : String :=
  "[\x7b\"line\":2,\"column\":5,\"length\":3,\"severity\":\"error\",\"message\":\"bad token\"\x7d]"

/-- A report of nothing. -/
def cleanReport : String := "[]"

/-- The samples by name. -/
def named : List (String × String) :=
  [("terminated_with_comment", terminatedWithComment), ("filtered_find", filteredFind),
    ("polite_show", politeShow), ("mixed_document", mixedDocument),
    ("unfiltered_find", unfilteredFind), ("unclosed_string", unclosedString),
    ("two_lines", twoLines), ("parser_error_report", errorReport),
    ("parser_clean_report", cleanReport)]

end Nsql.Sample
