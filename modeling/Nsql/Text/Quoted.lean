/-
  File:      Nsql/Text/Quoted.lean
  Subject:   A string as it is shown inside a message.

  The string stands between double quotes. A quote and a backslash are escaped, so are the control
  characters with a letter of their own; a character that cannot be shown by itself is written by
  its number.
-/
import Nsql.Text.PrintTable
import Nsql.Text.WordTable

namespace Nsql.Quoted

/-- Whether a character can be shown by itself. -/
def isShown (c : Char) : Bool :=
  let n := c.toNat
  if n < 0x80 then 0x20 ≤ n && n < 0x7F
  else !(inRanges extendingRanges n || inRanges hiddenRanges n)

/-- One character inside quotes. -/
def charText (c : Char) : List Char :=
  if c = '\x00' then ['\\', '0']
  else if c = '\t' then ['\\', 't']
  else if c = '\r' then ['\\', 'r']
  else if c = '\n' then ['\\', 'n']
  else if c = '"' then ['\\', '"']
  else if c = '\\' then ['\\', '\\']
  else if isShown c then [c]
  else ['\\', 'u', '\x7b'] ++ Nat.toDigits 16 c.toNat ++ ['\x7d']

/-- A string between quotes. -/
def text (s : String) : String := "\"" ++ String.ofList (s.toList.flatMap charText) ++ "\""

/-- A list of strings, each between quotes. -/
def listText (ss : List String) : String := "[" ++ String.intercalate ", " (ss.map text) ++ "]"

end Nsql.Quoted
