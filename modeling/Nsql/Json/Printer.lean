/-
  File:      Nsql/Json/Printer.lean
  Subject:   Writing a JSON value without white space.

  Quotes, backslashes and control characters are escaped; every other character stands for
  itself. The writer works on lists of characters and puts each piece in front of what follows.
-/
import Nsql.Json.Basic

namespace Nsql.Json

/-- A control character as an escape of six characters. -/
def controlEscape (c : Char) : List Char :=
  let digits := Nat.toDigits 16 c.toNat
  ['\\', 'u'] ++ List.replicate (4 - digits.length) '0' ++ digits

/-- One character of a string. -/
def escapeChar (c : Char) : List Char :=
  if c = '"' then ['\\', '"']
  else if c = '\\' then ['\\', '\\']
  else if c = '\x08' then ['\\', 'b']
  else if c = '\t' then ['\\', 't']
  else if c = '\n' then ['\\', 'n']
  else if c = '\x0c' then ['\\', 'f']
  else if c = '\r' then ['\\', 'r']
  else if c.toNat < 0x20 then controlEscape c
  else [c]

/-- A string between quotes, in front of `tail`. -/
def putString (s : String) (tail : List Char) : List Char :=
  '"' :: (s.toList.flatMap escapeChar ++ '"' :: tail)

mutual

/-- A value, in front of `tail`. -/
def put : Json → List Char → List Char
  | .null, tail => "null".toList ++ tail
  | .bool true, tail => "true".toList ++ tail
  | .bool false, tail => "false".toList ++ tail
  | .int n, tail => (toString n).toList ++ tail
  | .real x, tail => x.text.toList ++ tail
  | .str s, tail => putString s tail
  | .arr [], tail => '[' :: ']' :: tail
  | .arr (v :: vs), tail => '[' :: put v (putItems vs (']' :: tail))
  | .obj [], tail => '\x7b' :: '\x7d' :: tail
  | .obj ((k, v) :: ms), tail =>
    '\x7b' :: putString k (':' :: put v (putMembers ms ('\x7d' :: tail)))

/-- The elements behind the first one. -/
def putItems : List Json → List Char → List Char
  | [], tail => tail
  | v :: vs, tail => ',' :: put v (putItems vs tail)

/-- The members behind the first one. -/
def putMembers : List (String × Json) → List Char → List Char
  | [], tail => tail
  | (k, v) :: ms, tail => ',' :: putString k (':' :: put v (putMembers ms tail))

end

/-- The text of a value. -/
def render (v : Json) : String := String.ofList (put v [])

end Nsql.Json
