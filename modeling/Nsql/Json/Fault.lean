/-
  File:      Nsql/Json/Fault.lean
  Subject:   Faults of a JSON text and where they are.

  A reader holds the part of the text that it has not read. A fault is placed by the number of
  bytes that are left behind it, so a reader needs no counter: `Fault.here` is a fault at the
  place reached, `Fault.after n` one that took `n` more bytes to see. Only the message turns this
  into a line and a column, both counted from the start of the text.
-/
import Nsql.Json.Mismatch
import Nsql.Text.Lines

namespace Nsql.Json

/-- What can be wrong with a JSON text. -/
inductive Cause where
  | eofInValue
  | eofInList
  | eofInObject
  | eofInString
  | expectedColon
  | expectedCommaOrBracket
  | expectedCommaOrBrace
  | expectedIdent
  | expectedValue
  | invalidEscape
  | invalidNumber
  | numberOutOfRange
  | loneSurrogate
  | brokenSurrogate
  | controlCharacter
  | keyNotString
  | trailingComma
  | trailingCharacters
  | tooDeep
  | mismatch (m : Mismatch)
  deriving DecidableEq, Repr

/-- A cause and the number of bytes that are left behind it. -/
structure Fault where
  cause : Cause
  left : Nat
  deriving DecidableEq, Repr

/-- A fault where the unread part `rest` begins. -/
def Fault.here (cause : Cause) (rest : Text) : Fault := ⟨cause, Text.size rest⟩

/-- A fault seen `bytes` bytes further on, or at the end of the text if that is nearer. -/
def Fault.after (bytes : Nat) (cause : Cause) (rest : Text) : Fault :=
  ⟨cause, Text.size rest - bytes⟩

/-- A fault that the next byte shows. -/
def Fault.peek (cause : Cause) (rest : Text) : Fault := Fault.after 1 cause rest

/-- The words for a cause. -/
def Cause.text : Cause → String
  | .eofInValue => "EOF while parsing a value"
  | .eofInList => "EOF while parsing a list"
  | .eofInObject => "EOF while parsing an object"
  | .eofInString => "EOF while parsing a string"
  | .expectedColon => "expected `:`"
  | .expectedCommaOrBracket => "expected `,` or `]`"
  | .expectedCommaOrBrace => "expected `,` or `\x7d`"
  | .expectedIdent => "expected ident"
  | .expectedValue => "expected value"
  | .invalidEscape => "invalid escape"
  | .invalidNumber => "invalid number"
  | .numberOutOfRange => "number out of range"
  | .loneSurrogate => "lone leading surrogate in hex escape"
  | .brokenSurrogate => "unexpected end of hex escape"
  | .controlCharacter => "control character (\\u0000-\\u001F) found while parsing a string"
  | .keyNotString => "key must be a string"
  | .trailingComma => "trailing comma"
  | .trailingCharacters => "trailing characters"
  | .tooDeep => "recursion limit exceeded"
  | .mismatch m => m.message

/-- Line and column after the first `bytes` bytes of a text: lines are counted from one and end
    at line feeds only, the column is the number of bytes on the line. -/
def place : Text → (bytes line column : Nat) → Nat × Nat
  | [], _, line, column => (line, column)
  | c :: t, bytes, line, column =>
    if bytes = 0 then (line, column)
    else if c = '\n' then place t (bytes - 1) (line + 1) 0
    else if bytes < bytesOf c then (line, column + bytes)
    else place t (bytes - bytesOf c) line (column + bytesOf c)

/-- The message for a fault in `text`. -/
def Fault.message (fault : Fault) (text : Text) : String :=
  let (line, column) := place text (Text.size text - fault.left) 1 0
  fault.cause.text ++ " at line " ++ toString line ++ " column " ++ toString column

end Nsql.Json
