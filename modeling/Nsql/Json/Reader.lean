/-
  File:      Nsql/Json/Reader.lean
  Subject:   Reading a JSON text as a value.

  `parse?` takes one value with white space around it. Arrays and objects may be nested up to a
  fixed depth; of two members with the same key the later one stays.
-/
import Nsql.Json.Token

namespace Nsql.Json

/-- Arrays and objects may not be nested this deep. -/
def depthLimit : Nat := 128

/-- A number as a value. -/
def ofNumber : Number → Json
  | .int n => .int n
  | .real x => .real x

/-- What may stand behind an element: a comma and another element (`true`), or the end. The
    element after a comma must be there. -/
def readComma (close : Char) (eof wrong : Cause) (t : Text) : Reading Bool :=
  match skipSpace t with
  | [] => .error (.peek eof [])
  | c :: r =>
    if c = close then .ok (false, r)
    else if c = ',' then
      match skipSpace r with
      | [] => .error (.peek .eofInValue [])
      | d :: s => if d = close then .error (.peek .trailingComma (d :: s)) else .ok (true, d :: s)
    else .error (.peek wrong (c :: r))

/-- Reads the colon between a key and its value. -/
def readColon (t : Text) : Except Fault Text :=
  match skipSpace t with
  | [] => .error (.peek .eofInObject [])
  | c :: r => if c = ':' then .ok r else .error (.peek .expectedColon (c :: r))

mutual

/-- Reads a value; `depth` is how deep arrays and objects may still be nested. -/
def readValue : (fuel depth : Nat) → Text → Reading Json
  | 0, _, t => .error (.here .tooDeep t)
  | fuel + 1, depth, t =>
    match skipSpace t with
    | [] => .error (.peek .eofInValue [])
    | c :: r =>
      if c = 'n' then (readWord "ull".toList r).map fun s => (.null, s)
      else if c = 't' then (readWord "rue".toList r).map fun s => (.bool true, s)
      else if c = 'f' then (readWord "alse".toList r).map fun s => (.bool false, s)
      else if c = '-' then (readUnsigned true r).map fun p => (ofNumber p.1, p.2)
      else if c.isDigit then (readUnsigned false (c :: r)).map fun p => (ofNumber p.1, p.2)
      else if c = '"' then (readString r).map fun p => (.str p.1, p.2)
      else if c = '[' then
        if depth ≤ 1 then .error (.here .tooDeep r)
        else
          match skipSpace r with
          | [] => .error (.peek .eofInList [])
          | d :: s =>
            if d = ']' then .ok (.arr [], s) else readItems fuel (depth - 1) [] (d :: s)
      else if c = '\x7b' then
        if depth ≤ 1 then .error (.here .tooDeep r)
        else
          match skipSpace r with
          | [] => .error (.peek .eofInObject [])
          | d :: s =>
            if d = '\x7d' then .ok (.obj [], s) else readMembers fuel (depth - 1) [] (d :: s)
      else .error (.peek .expectedValue (c :: r))

/-- Reads the elements of an array, from the start of one of them. -/
def readItems : (fuel depth : Nat) → (read : List Json) → Text → Reading Json
  | 0, _, _, t => .error (.here .tooDeep t)
  | fuel + 1, depth, read, t =>
    match readValue fuel depth t with
    | .error f => .error f
    | .ok (v, r) =>
      match readComma ']' .eofInList .expectedCommaOrBracket r with
      | .error f => .error f
      | .ok (true, r) => readItems fuel depth (v :: read) r
      | .ok (false, r) => .ok (.arr (v :: read).reverse, r)

/-- Reads the members of an object, from the start of a key. -/
def readMembers : (fuel depth : Nat) → (read : List (String × Json)) → Text → Reading Json
  | 0, _, _, t => .error (.here .tooDeep t)
  | fuel + 1, depth, read, t =>
    match t with
    | '"' :: r =>
      match readString r with
      | .error f => .error f
      | .ok (key, r) =>
        match readColon r with
        | .error f => .error f
        | .ok r =>
          match readValue fuel depth r with
          | .error f => .error f
          | .ok (v, r) =>
            match readComma '\x7d' .eofInObject .expectedCommaOrBrace r with
            | .error f => .error f
            | .ok (true, r) => readMembers fuel depth ((key, v) :: read) r
            | .ok (false, r) => .ok (ofMembers ((key, v) :: read).reverse, r)
    | t => .error (.peek .keyNotString t)

end

/-- The value that a text writes. Every call of the readers comes with a character read or with
    an element or member begun, so twice the length of the text is fuel enough. -/
def parse (t : Text) : Except Fault Json :=
  match readValue (2 * t.length + 2) depthLimit t with
  | .error f => .error f
  | .ok (v, r) =>
    match skipSpace r with
    | [] => .ok v
    | s => .error (.peek .trailingCharacters s)

/-- The value that a text writes, if it writes one. -/
def parse? (t : Text) : Option Json := (parse t).toOption

end Nsql.Json
