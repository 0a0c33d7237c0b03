/-
  File:      Nsql/Diagnostic.lean
  Subject:   Diagnostics: what a validator has to say about a place in a document.

  Lines are counted from zero and columns are UTF-16 units from the start of the line. Both are
  numbers of 32 bits: what is counted in a text is cut down to them where a stretch is made of it,
  so that a higher number starts again from zero.
-/

namespace Nsql

/-- The lower 32 bits of a number. -/
def low32 (n : Nat) : Nat := n % 4294967296

/-- Below the bound nothing is cut. -/
theorem low32_eq_self {n : Nat} (h : n < 4294967296) : low32 n = n := Nat.mod_eq_of_lt h

theorem low32_lt (n : Nat) : low32 n < 4294967296 := Nat.mod_lt n (by decide)

theorem low32_le (n : Nat) : low32 n ≤ n := Nat.mod_le n _

/-- It does not matter whether a number is cut before something is added, if it is afterwards. -/
theorem low32_add (m n : Nat) : low32 (low32 m + n) = low32 (m + n) := Nat.mod_add_mod m _ n

theorem low32_low32 (n : Nat) : low32 (low32 n) = low32 n := Nat.mod_mod n _

/-- A place in a document. -/
structure Position where
  line : Nat
  column : Nat
  deriving DecidableEq, Repr

/-- A stretch of a document; its end is not part of it. -/
structure Range where
  start : Position
  stop : Position
  deriving DecidableEq, Repr

/-- A stretch of one line, from numbers that were counted. -/
def Range.inLine (line start stop : Nat) : Range :=
  ⟨⟨low32 line, low32 start⟩, ⟨low32 line, low32 stop⟩⟩

theorem Range.inLine_eq {line start stop : Nat} (hline : line < 4294967296)
    (hstart : start < 4294967296) (hstop : stop < 4294967296) :
    inLine line start stop = ⟨⟨line, start⟩, ⟨line, stop⟩⟩ := by
  rw [inLine, low32_eq_self hline, low32_eq_self hstart, low32_eq_self hstop]

/-- How much a diagnostic matters. -/
inductive Severity where
  | error
  | warning
  | information
  | hint
  deriving DecidableEq, Repr

/-- The number of a severity on the wire. -/
def Severity.number : Severity → Nat
  | .error => 1
  | .warning => 2
  | .information => 3
  | .hint => 4

/-- Which check a diagnostic comes from. -/
inductive Code where
  | missingTerminator
  | unclosedString
  | missingFilter
  | parserReported
  | parserFailure
  | parserOutput
  deriving DecidableEq, Repr

/-- The name of a check. -/
def Code.text : Code → String
  | .missingTerminator => "NSQL-001"
  | .unclosedString => "NSQL-002"
  | .missingFilter => "NSQL-003"
  | .parserReported => "PARSER-001"
  | .parserFailure => "PARSER-900"
  | .parserOutput => "PARSER-901"

/-- Who found it: the server itself, or the parser it ran. -/
inductive Source where
  | server
  | parser
  deriving DecidableEq, Repr

/-- The name of a source. -/
def Source.text : Source → String
  | .server => "nsql-server"
  | .parser => "nsql-parser"

/-- One finding about a document. -/
structure Diagnostic where
  severity : Severity
  range : Range
  message : String
  code : Option Code
  source : Source
  deriving DecidableEq, Repr

/-- A finding of the server about a whole line of the given width. -/
def Diagnostic.ofLine (severity : Severity) (code : Code) (message : String) (line width : Nat) :
    Diagnostic :=
  ⟨severity, .inLine line 0 width, message, some code, .server⟩

/-- The same finding, `n` lines further down. -/
def Diagnostic.shift (n : Nat) (d : Diagnostic) : Diagnostic :=
  { d with range := ⟨⟨low32 (d.range.start.line + n), d.range.start.column⟩,
                     ⟨low32 (d.range.stop.line + n), d.range.stop.column⟩⟩ }

/-- A line that is further down makes the finding that is further down. -/
theorem Diagnostic.shift_ofLine (n : Nat) (severity : Severity) (code : Code) (message : String)
    (line width : Nat) :
    (ofLine severity code message line width).shift n =
      ofLine severity code message (line + n) width := by
  simp only [shift, ofLine, Range.inLine, low32_add]

end Nsql
