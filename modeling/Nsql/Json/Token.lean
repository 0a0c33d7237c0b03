/-
  File:      Nsql/Json/Token.lean
  Subject:   The tokens of JSON: white space, words, numbers and strings.

  Every reader takes the unread text and gives what it read and the text behind it, or the first
  fault. The recursion is on the text; where an escape covers several characters the reader is
  told how many of them to pass over (`skip`).
-/
import Nsql.Json.Fault

namespace Nsql.Json

/-- What a reader gives: a value and the unread text, or a fault. -/
abbrev Reading (α : Type) := Except Fault (α × Text)

/-! ## 1. White space and words -/

/-- White space between tokens. -/
def isSpace (c : Char) : Bool := c == ' ' || c == '\t' || c == '\n' || c == '\r'

/-- The text without the white space in front. -/
def skipSpace (t : Text) : Text := t.dropWhile isSpace

/-- Reads the letters of a word one after the other. -/
def readWord : (word : Text) → Text → Except Fault Text
  | [], t => .ok t
  | _ :: _, [] => .error (.here .eofInValue [])
  | w :: ws, c :: t => if c = w then readWord ws t else .error (.peek .expectedIdent (c :: t))

/-! ## 2. Numbers -/

/-- A number: an integer, or a floating-point value. -/
inductive Number where
  | int (value : Int)
  | real (value : Binary64)
  deriving DecidableEq, Repr

/-- Greatest significand that is kept exactly, and greatest unsigned integer: 2^64 - 1. -/
def wordLimit : Nat := 18446744073709551615

/-- Least signed integer of 64 bits: -2^63. -/
def leastInt : Int := -9223372036854775808

/-- Greatest signed integer of 64 bits: 2^63 - 1. -/
def greatestInt : Int := 9223372036854775807

/-- Greatest exponent that is read: 2^31 - 1. -/
def exponentLimit : Nat := 2147483647

/-- Value of a decimal digit. -/
def digitValue (c : Char) : Nat := c.toNat - 48

/-- The floating-point value of a signed significand and a power of ten. -/
def makeReal (negative : Bool) (significand : Nat) (power : Int) (rest : Text) : Reading Number :=
  match Magnitude.ofScientific? significand power with
  | some m => .ok (.real ⟨negative, m⟩, rest)
  | none => .error (.here .numberOutOfRange rest)

/-- Reads the digits of an exponent behind its first one and makes the number. An exponent above
    the limit ends the number: a value that would be too large is a fault right there, any other
    one is zero. -/
def readExponentDigits (negative : Bool) (significand : Nat) (power : Int) (down : Bool) :
    (exponent : Nat) → Text → Reading Number
  | e, [] => makeReal negative significand (if down then power - e else power + e) []
  | e, c :: t =>
    if c.isDigit then
      if exponentLimit < e * 10 + digitValue c then
        if significand ≠ 0 ∧ down = false then .error (.here .numberOutOfRange t)
        else .ok (.real ⟨negative, .zero⟩, t.dropWhile Char.isDigit)
      else readExponentDigits negative significand power down (e * 10 + digitValue c) t
    else makeReal negative significand (if down then power - e else power + e) (c :: t)

/-- Reads an exponent, behind its `e`. -/
def readExponent (negative : Bool) (significand : Nat) (power : Int) (t : Text) : Reading Number :=
  let (down, t) :=
    match t with
    | '+' :: t => (false, t)
    | '-' :: t => (true, t)
    | t => (false, t)
  match t with
  | [] => .error (.here .eofInValue [])
  | c :: r =>
    if c.isDigit then readExponentDigits negative significand power down (digitValue c) r
    else .error (.peek .invalidNumber t)

/-- What follows the digits of a fraction: an exponent, or the end of the number. -/
def endFraction (negative : Bool) (significand : Nat) (power : Int) (t : Text) : Reading Number :=
  match t with
  | 'e' :: r => readExponent negative significand power r
  | 'E' :: r => readExponent negative significand power r
  | t => makeReal negative significand power t

/-- Reads the digits of a fraction. Digits that the significand cannot hold are passed over. -/
def readFraction (negative : Bool) (some? : Bool) :
    (significand : Nat) → (power : Int) → Text → Reading Number
  | s, p, [] => if some? then endFraction negative s p [] else .error (.peek .eofInValue [])
  | s, p, c :: t =>
    if c.isDigit then
      if wordLimit < s * 10 + digitValue c then
        endFraction negative s p ((c :: t).dropWhile Char.isDigit)
      else readFraction negative true (s * 10 + digitValue c) (p - 1) t
    else if some? then endFraction negative s p (c :: t)
    else .error (.peek .invalidNumber (c :: t))

/-- Reads the digits of an integer that no longer fits the significand: each one counts as a
    power of ten. -/
def readLong (negative : Bool) (significand : Nat) : (power : Int) → Text → Reading Number
  | p, [] => makeReal negative significand p []
  | p, c :: t =>
    if c.isDigit then readLong negative significand (p + 1) t
    else if c = '.' then readFraction negative false significand p t
    else if c = 'e' ∨ c = 'E' then readExponent negative significand p t
    else makeReal negative significand p (c :: t)

/-- What follows the digits of an integer that fits. A negative zero, and a negative number below
    the least integer, are floating-point values. -/
def endInteger (negative : Bool) (significand : Nat) (t : Text) : Reading Number :=
  match t with
  | '.' :: r => readFraction negative false significand 0 r
  | 'e' :: r => readExponent negative significand 0 r
  | 'E' :: r => readExponent negative significand 0 r
  | t =>
    if negative then
      if significand = 0 ∨ -(significand : Int) < leastInt then makeReal true significand 0 t
      else .ok (.int (-(significand : Int)), t)
    else .ok (.int significand, t)

/-- Reads the digits of an integer. -/
def readDigits (negative : Bool) : (significand : Nat) → Text → Reading Number
  | s, [] => endInteger negative s []
  | s, c :: t =>
    if c.isDigit then
      if wordLimit < s * 10 + digitValue c then readLong negative s 0 (c :: t)
      else readDigits negative (s * 10 + digitValue c) t
    else endInteger negative s (c :: t)

/-- Reads a number, behind its sign. A zero in front is a number of its own. -/
def readUnsigned (negative : Bool) (t : Text) : Reading Number :=
  match t with
  | [] => .error (.here .eofInValue [])
  | c :: r =>
    if c = '0' then
      match r with
      | d :: _ => if d.isDigit then .error (.peek .invalidNumber r) else endInteger negative 0 r
      | [] => endInteger negative 0 r
    else if c.isDigit then readDigits negative (digitValue c) r
    else .error (.peek .invalidNumber t)

/-! ## 3. Strings -/

/-- Value of a hexadecimal digit. -/
def hexValue? (c : Char) : Option Nat :=
  let n := c.toNat
  if 48 ≤ n ∧ n ≤ 57 then some (n - 48)
  else if 97 ≤ n ∧ n ≤ 102 then some (n - 87)
  else if 65 ≤ n ∧ n ≤ 70 then some (n - 55)
  else none

/-- Value of four hexadecimal digits. -/
def hexWord? (a b c d : Char) : Option Nat :=
  match hexValue? a, hexValue? b, hexValue? c, hexValue? d with
  | some a, some b, some c, some d => some (((a * 16 + b) * 16 + c) * 16 + d)
  | _, _, _, _ => none

/-- Reads four hexadecimal digits. -/
def readHex (t : Text) : Except Fault Nat :=
  let wrong : Fault :=
    if Text.size t < 4 then .after 4 .eofInString t else .after 4 .invalidEscape t
  match t with
  | a :: b :: c :: d :: _ =>
    match hexWord? a b c d with
    | some n => .ok n
    | none => .error wrong
  | _ => .error wrong

/-- The character of an escape of one letter. -/
def escapeLetter? (c : Char) : Option Char :=
  if c = '"' then some '"' else if c = '\\' then some '\\' else if c = '/' then some '/'
  else if c = 'b' then some '\x08' else if c = 'f' then some '\x0c' else if c = 'n' then some '\n'
  else if c = 'r' then some '\r' else if c = 't' then some '\t' else none

/-- Reads the second half of a surrogate pair whose first half is `high`; it starts behind the
    first four digits. -/
def readLowSurrogate (high : Nat) (t : Text) : Except Fault Char :=
  match t with
  | [] => .error (.here .eofInString [])
  | b :: t =>
    if b ≠ '\\' then .error (.peek .brokenSurrogate (b :: t))
    else
      match t with
      | [] => .error (.here .eofInString [])
      | u :: t =>
        if u ≠ 'u' then .error (.peek .brokenSurrogate (u :: t))
        else
          match readHex t with
          | .error f => .error f
          | .ok low =>
            if 0xDC00 ≤ low ∧ low ≤ 0xDFFF then
              .ok (Char.ofNat ((high - 0xD800) * 0x400 + (low - 0xDC00) + 0x10000))
            else .error (.after 4 .loneSurrogate t)

/-- Reads what follows a backslash: the character, and how many characters stand for it. -/
def readEscape (t : Text) : Except Fault (Char × Nat) :=
  match t with
  | [] => .error (.here .eofInString [])
  | c :: r =>
    if c = 'u' then
      match readHex r with
      | .error f => .error f
      | .ok n =>
        if 0xDC00 ≤ n ∧ n ≤ 0xDFFF then .error (.after 4 .loneSurrogate r)
        else if 0xD800 ≤ n ∧ n ≤ 0xDBFF then
          match readLowSurrogate n (r.drop 4) with
          | .error f => .error f
          | .ok c => .ok (c, 11)
        else .ok (Char.ofNat n, 5)
    else
      match escapeLetter? c with
      | some e => .ok (e, 1)
      | none => .error (.peek .invalidEscape t)

/-- Reads the characters of a string up to its closing quote; `read` holds those read so far, the
    last one first. -/
def readChars (skip : Nat) (read : Text) : Text → Reading String
  | [] => .error (.here .eofInString [])
  | c :: t =>
    match skip with
    | n + 1 => readChars n read t
    | 0 =>
      if c = '"' then .ok (String.ofList read.reverse, t)
      else if c = '\\' then
        match readEscape t with
        | .error f => .error f
        | .ok (e, used) => readChars used (e :: read) t
      else if c.toNat < 0x20 then .error (.peek .controlCharacter (c :: t))
      else readChars 0 (c :: read) t

/-- Reads a string, behind its opening quote. -/
def readString (t : Text) : Reading String := readChars 0 [] t

end Nsql.Json
