/-
  File:      Nsql/Report/Reader.lean
  Subject:   Reading a parser's report.

  A report is a JSON list of records. A record is an object, whose unknown members are passed
  over, or a list of the five fields in order. Reading stops at the first fault, which may be one
  of the text or one of the values; either has a place in the text.
-/
import Nsql.Json.Skip
import Nsql.Report.Record

namespace Nsql.Report

open Json

/-! ## 1. Values -/

/-- The fault of a value of the wrong kind. The value is read to tell what it is, lists and
    objects apart; a fault in it comes first. -/
def wrongKind (expected : String) (t : Text) : Fault :=
  let kind (shape : Shape) (rest : Text) : Fault :=
    .here (.mismatch (.invalidType shape expected)) rest
  let word (letters : Text) (shape : Shape) (rest : Text) : Fault :=
    match readWord letters rest with
    | .error f => f
    | .ok rest => kind shape rest
  let number (reading : Reading Number) : Fault :=
    match reading with
    | .error f => f
    | .ok (.int n, rest) => kind (.int n) rest
    | .ok (.real x, rest) => kind (.real x) rest
  match t with
  | [] => .peek .eofInValue []
  | c :: r =>
    if c = 'n' then word ['u', 'l', 'l'] .null r
    else if c = 't' then word ['r', 'u', 'e'] (.bool true) r
    else if c = 'f' then word ['a', 'l', 's', 'e'] (.bool false) r
    else if c = '-' then number (readUnsigned true r)
    else if c.isDigit then number (readUnsigned false t)
    else if c = '"' then
      match readString r with
      | .error f => f
      | .ok (s, rest) => kind (.str s) rest
    else if c = '[' then kind .seq t
    else if c = '\x7b' then kind .map t
    else .peek .expectedValue t

/-- A number that must be an integer of 64 bits. -/
def asInt (reading : Reading Number) : Reading Int :=
  match reading with
  | .error f => .error f
  | .ok (.int n, rest) =>
    if n ≤ greatestInt then .ok (n, rest)
    else .error (.here (.mismatch (.invalidValue (.int n) "i64")) rest)
  | .ok (.real x, rest) => .error (.here (.mismatch (.invalidType (.real x) "i64")) rest)

/-- Reads an integer of 64 bits. -/
def readInt (t : Text) : Reading Int :=
  match skipSpace t with
  | '-' :: r => asInt (readUnsigned true r)
  | t =>
    match t with
    | c :: _ => if c.isDigit then asInt (readUnsigned false t) else .error (wrongKind "i64" t)
    | [] => .error (wrongKind "i64" t)

/-- Reads an integer of 64 bits or nothing. -/
def readIntOrNull (t : Text) : Reading (Option Int) :=
  match skipSpace t with
  | 'n' :: r => (readWord ['u', 'l', 'l'] r).map fun rest => (none, rest)
  | t => (readInt t).map fun p => (some p.1, p.2)

/-- Reads a string. -/
def readText (t : Text) : Reading String :=
  match skipSpace t with
  | '"' :: r => readString r
  | t => .error (wrongKind "a string" t)

/-! ## 2. Records as objects -/

/-- The fields of a record that have been read. -/
structure Draft where
  line : Option Int := none
  column : Option Int := none
  length : Option (Option Int) := none
  severity : Option String := none
  message : Option String := none
  deriving DecidableEq, Repr

/-- Whether a field has been read. -/
def Draft.has (d : Draft) (key : String) : Bool :=
  if key = "line" then d.line.isSome
  else if key = "column" then d.column.isSome
  else if key = "length" then d.length.isSome
  else if key = "severity" then d.severity.isSome
  else if key = "message" then d.message.isSome
  else false

/-- The record of a draft. A line, a column and a message must be there; without a severity it is
    empty. -/
def Draft.record (d : Draft) : Except Mismatch Record :=
  match d.line, d.column, d.message with
  | none, _, _ => .error (.missingField "line")
  | some _, none, _ => .error (.missingField "column")
  | some _, some _, none => .error (.missingField "message")
  | some line, some column, some message =>
    .ok ⟨line, column, d.length.getD none, d.severity.getD "", message⟩

/-- Reads the value of a member and notes it; one that no record has is passed over. -/
def Draft.readMember (d : Draft) (key : String) (t : Text) : Reading Draft :=
  if key = "line" then (readInt t).map fun p => ({ d with line := some p.1 }, p.2)
  else if key = "column" then (readInt t).map fun p => ({ d with column := some p.1 }, p.2)
  else if key = "length" then (readIntOrNull t).map fun p => ({ d with length := some p.1 }, p.2)
  else if key = "severity" then (readText t).map fun p => ({ d with severity := some p.1 }, p.2)
  else if key = "message" then (readText t).map fun p => ({ d with message := some p.1 }, p.2)
  else (skip t).map fun rest => (d, rest)

/-- The place of a key that came before: behind the white space after it, and behind the end of
    the object if that is there. -/
def repeatedKey (key : String) (t : Text) : Fault :=
  let rest :=
    match skipSpace t with
    | '\x7d' :: r => r
    | t => t
  .here (.mismatch (.duplicateField key)) rest

/-- Goes to the next key of an object, behind its opening quote; `none` at the end of the
    object. -/
def nextKey (first : Bool) (t : Text) : Reading Bool :=
  match skipSpace t with
  | [] => .error (.peek .eofInObject [])
  | c :: r =>
    if c = '\x7d' then .ok (false, r)
    else if first then
      if c = '"' then .ok (true, r) else .error (.peek .keyNotString (c :: r))
    else if c = ',' then
      match skipSpace r with
      | [] => .error (.peek .eofInValue [])
      | d :: s =>
        if d = '"' then .ok (true, s)
        else if d = '\x7d' then .error (.peek .trailingComma (d :: s))
        else .error (.peek .keyNotString (d :: s))
    else .error (.peek .expectedCommaOrBrace (c :: r))

/-- Reads the members of a record, behind its opening brace or behind a member. -/
def readMembers : (fuel : Nat) → (first : Bool) → Draft → Text → Reading Record
  | 0, _, _, t => .error (.here .tooDeep t)
  | fuel + 1, first, d, t =>
    match nextKey first t with
    | .error f => .error f
    | .ok (false, rest) =>
      match d.record with
      | .ok r => .ok (r, rest)
      | .error m => .error (.here (.mismatch m) rest)
    | .ok (true, rest) =>
      match readString rest with
      | .error f => .error f
      | .ok (key, rest) =>
        if d.has key then .error (repeatedKey key rest)
        else
          match readColon rest with
          | .error f => .error f
          | .ok rest =>
            match d.readMember key rest with
            | .error f => .error f
            | .ok (d, rest) => readMembers fuel false d rest

/-! ## 3. Records as lists -/

/-- Goes to the next element of a list. At the end of the list it stays before the bracket. -/
def nextElement (first : Bool) (t : Text) : Reading Bool :=
  match skipSpace t with
  | [] => .error (.peek .eofInList [])
  | c :: r =>
    if c = ']' then .ok (false, c :: r)
    else if first then .ok (true, c :: r)
    else if c = ',' then
      match skipSpace r with
      | [] => .error (.peek .eofInValue [])
      | d :: s => if d = ']' then .error (.peek .trailingComma (d :: s)) else .ok (true, d :: s)
    else .error (.peek .expectedCommaOrBracket (c :: r))

/-- Reads an element, or nothing at the end of the list. -/
def readElement {α : Type} (first : Bool) (read : Text → Reading α) (t : Text) :
    Reading (Option α) :=
  match nextElement first t with
  | .error f => .error f
  | .ok (false, rest) => .ok (none, rest)
  | .ok (true, rest) => (read rest).map fun p => (some p.1, p.2)

/-- The fault of a list that ends before the field with this index. -/
def tooShort (index : Nat) (t : Text) : Fault :=
  .here (.mismatch (.invalidLength index "struct ParserErrorRecord with 5 elements")) (t.drop 1)

/-- Reads the end of a list after its last field. -/
def readListEnd (t : Text) : Except Fault Text :=
  match skipSpace t with
  | [] => .error (.peek .eofInList [])
  | c :: r =>
    if c = ']' then .ok r
    else if c = ',' then
      match skipSpace r with
      | ']' :: s => .error (.peek .trailingComma (']' :: s))
      | s => .error (.peek .trailingCharacters s)
    else .error (.peek .trailingCharacters (c :: r))

/-- Reads the fields of a record in order, behind the opening bracket. -/
def readFields (t : Text) : Reading Record :=
  match readElement true readInt t with
  | .error f => .error f
  | .ok (none, rest) => .error (tooShort 0 rest)
  | .ok (some line, rest) =>
    match readElement false readInt rest with
    | .error f => .error f
    | .ok (none, rest) => .error (tooShort 1 rest)
    | .ok (some column, rest) =>
      match readElement false readIntOrNull rest with
      | .error f => .error f
      | .ok (length, rest) =>
        match readElement false readText rest with
        | .error f => .error f
        | .ok (severity, rest) =>
          match readElement false readText rest with
          | .error f => .error f
          | .ok (none, rest) => .error (tooShort 4 rest)
          | .ok (some message, rest) =>
            (readListEnd rest).map fun rest =>
              (⟨line, column, length.getD none, severity.getD "", message⟩, rest)

/-! ## 4. The report -/

/-- Reads a record. -/
def readRecord (t : Text) : Reading Record :=
  match skipSpace t with
  | '\x7b' :: r => readMembers (r.length + 1) true {} r
  | '[' :: r => readFields r
  | t => .error (wrongKind "struct ParserErrorRecord" t)

/-- Reads the records of a list, behind its opening bracket or behind a record; `read` holds those
    read so far, the last one first. -/
def readRecords :
    (fuel : Nat) → (first : Bool) → (read : List Record) → Text → Reading (List Record)
  | 0, _, _, t => .error (.here .tooDeep t)
  | fuel + 1, first, read, t =>
    match nextElement first t with
    | .error f => .error f
    | .ok (false, rest) => .ok (read.reverse, rest.drop 1)
    | .ok (true, rest) =>
      match readRecord rest with
      | .error f => .error f
      | .ok (r, rest) => readRecords fuel false (r :: read) rest

/-- Reads a report. -/
def parse (t : Text) : Except Fault (List Record) :=
  match skipSpace t with
  | '[' :: r =>
    match readRecords (r.length + 1) true [] r with
    | .error f => .error f
    | .ok (records, rest) =>
      match skipSpace rest with
      | [] => .ok records
      | s => .error (.peek .trailingCharacters s)
  | t => .error (wrongKind "a sequence" t)

/-! ## 5. Reports that cannot be read -/

/-- A report that cannot be read: the text, unchanged, and what is wrong with it. -/
structure Malformed where
  raw : Text
  fault : Fault
  deriving DecidableEq, Repr

/-- What is wrong with a report, in words. -/
def Malformed.message (m : Malformed) : String := m.fault.message m.raw

/-- Reads a report, and keeps the text of one that cannot be read. -/
def read (t : Text) : Except Malformed (List Record) :=
  match parse t with
  | .ok records => .ok records
  | .error f => .error ⟨t, f⟩

end Nsql.Report
