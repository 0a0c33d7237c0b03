/-
  File:      Nsql/Json/Skip.lean
  Subject:   Passing over a JSON value that nobody asked for.

  The value is checked for its form only: numbers may be of any size, escapes need not make
  characters, and arrays and objects may be nested without bound. `Frame`s are the arrays and
  objects that are still open, the innermost first.
-/
import Nsql.Json.Reader

namespace Nsql.Json

/-! ## 1. Tokens -/

/-- Passes over an exponent, behind its `e`. -/
def skipExponent (t : Text) : Except Fault Text :=
  let t :=
    match t with
    | '+' :: r => r
    | '-' :: r => r
    | t => t
  match t with
  | [] => .error (.peek .invalidNumber [])
  | c :: r => if c.isDigit then .ok (r.dropWhile Char.isDigit) else .error (.peek .invalidNumber t)

/-- What follows the digits: an exponent, or the end of the number. -/
def skipBehindDigits (t : Text) : Except Fault Text :=
  match t with
  | 'e' :: r => skipExponent r
  | 'E' :: r => skipExponent r
  | t => .ok t

/-- Passes over what follows the digits of an integer. -/
def skipBehindInteger (t : Text) : Except Fault Text :=
  match t with
  | '.' :: r =>
    match r with
    | [] => .error (.peek .invalidNumber [])
    | c :: s =>
      if c.isDigit then skipBehindDigits (s.dropWhile Char.isDigit)
      else .error (.peek .invalidNumber r)
  | t => skipBehindDigits t

/-- Passes over a number, behind its sign. -/
def skipUnsigned (t : Text) : Except Fault Text :=
  match t with
  | [] => .error (.peek .invalidNumber [])
  | c :: r =>
    if c = '0' then
      match r with
      | d :: _ => if d.isDigit then .error (.peek .invalidNumber r) else skipBehindInteger r
      | [] => .ok r
    else if c.isDigit then skipBehindInteger (r.dropWhile Char.isDigit)
    else .error (.peek .invalidNumber t)

/-- Passes over the characters of a string and its closing quote. -/
def skipChars (skip : Nat) : Text → Except Fault Text
  | [] => .error (.here .eofInString [])
  | c :: t =>
    match skip with
    | n + 1 => skipChars n t
    | 0 =>
      if c = '"' then .ok t
      else if c = '\\' then
        match t with
        | [] => .error (.here .eofInString [])
        | e :: r =>
          if e = 'u' then
            match readHex r with
            | .error f => .error f
            | .ok _ => skipChars 5 t
          else if (escapeLetter? e).isSome then skipChars 1 t
          else .error (.peek .invalidEscape t)
      else if c.toNat < 0x20 then .error (.here .controlCharacter (c :: t))
      else skipChars 0 t

/-- Passes over a string, behind its opening quote. -/
def skipString (t : Text) : Except Fault Text := skipChars 0 t

/-! ## 2. Values -/

/-- An array or an object that is still open. -/
inductive Frame where
  | list
  | object
  deriving DecidableEq, Repr

/-- What closes it. -/
def Frame.close : Frame → Char
  | .list => ']'
  | .object => '\x7d'

/-- The fault of a text that ends inside it. -/
def Frame.eof : Frame → Cause
  | .list => .eofInList
  | .object => .eofInObject

/-- The fault of anything else where a comma or its end is due. -/
def Frame.wrong : Frame → Cause
  | .list => .expectedCommaOrBracket
  | .object => .expectedCommaOrBrace

/-- Passes over a key and its colon. -/
def skipKey (t : Text) : Except Fault Text :=
  match skipSpace t with
  | [] => .error (.peek .eofInObject [])
  | c :: r =>
    if c = '"' then (skipString r).bind readColon else .error (.peek .keyNotString (c :: r))

/-- What stands before the next value inside a frame. -/
def Frame.skipLead : Frame → Text → Except Fault Text
  | .list, t => .ok t
  | .object, t => skipKey t

mutual

/-- Passes over a value and over what closes the open frames around it. -/
def skipValue : (fuel : Nat) → (frames : List Frame) → Text → Except Fault Text
  | 0, _, t => .error (.here .tooDeep t)
  | fuel + 1, frames, t =>
    match skipSpace t with
    | [] => .error (.peek .eofInValue [])
    | c :: r =>
      if c = 'n' then (readWord ['u', 'l', 'l'] r).bind (skipBehind fuel frames)
      else if c = 't' then (readWord ['r', 'u', 'e'] r).bind (skipBehind fuel frames)
      else if c = 'f' then (readWord ['a', 'l', 's', 'e'] r).bind (skipBehind fuel frames)
      else if c = '-' then (skipUnsigned r).bind (skipBehind fuel frames)
      else if c.isDigit then (skipUnsigned (c :: r)).bind (skipBehind fuel frames)
      else if c = '"' then (skipString r).bind (skipBehind fuel frames)
      else if c = '[' then skipInto fuel .list frames r
      else if c = '\x7b' then skipInto fuel .object frames r
      else .error (.peek .expectedValue (c :: r))

/-- Passes over the inside of a frame that was just opened, and over what follows it. -/
def skipInto : (fuel : Nat) → Frame → (frames : List Frame) → Text → Except Fault Text
  | 0, _, _, t => .error (.here .tooDeep t)
  | fuel + 1, frame, frames, t =>
    match skipSpace t with
    | [] => .error (.peek frame.eof [])
    | c :: r =>
      if c = frame.close then skipBehind fuel frames r
      else (frame.skipLead (c :: r)).bind (skipValue fuel (frame :: frames))

/-- Passes over what follows a value: the rest of the open frames. -/
def skipBehind : (fuel : Nat) → (frames : List Frame) → Text → Except Fault Text
  | _, [], t => .ok t
  | 0, _ :: _, t => .error (.here .tooDeep t)
  | fuel + 1, frame :: frames, t =>
    match skipSpace t with
    | [] => .error (.peek frame.eof [])
    | c :: r =>
      if c = frame.close then skipBehind fuel frames r
      else if c = ',' then (frame.skipLead r).bind (skipValue fuel (frame :: frames))
      else .error (.peek frame.wrong (c :: r))

end

/-- Passes over one value. Every step takes a character or goes from one of the three functions
    to the next, so three times the length of the text is fuel enough. -/
def skip (t : Text) : Except Fault Text := skipValue (3 * t.length + 3) [] t

end Nsql.Json
