/-
  File:      Nsql/Text/Blank.lean
  Subject:   White space, as the Unicode property White_Space has it.

  The set is small enough to be written out. Neither the zero-width space nor the byte order
  mark belongs to it.
-/
import Nsql.Text.Basic

namespace Nsql

/-- White space: the characters with the property White_Space. -/
def isBlank (c : Char) : Bool :=
  let n := c.toNat
  (0x9 ≤ n && n ≤ 0xD) || n == 0x20 || n == 0x85 || n == 0xA0 || n == 0x1680 ||
    (0x2000 ≤ n && n ≤ 0x200A) || n == 0x2028 || n == 0x2029 || n == 0x202F || n == 0x205F ||
    n == 0x3000

/-- The byte order mark. -/
def byteOrderMark : Char := '\ufeff'

namespace Text

/-- A text without the white space at its ends. -/
def trimBlanks (t : Text) : Text := trimWhile isBlank t

/-- A line without the white space and byte order marks at its ends. -/
def trimEdges (t : Text) : Text := trimWhile (fun c => isBlank c || c == byteOrderMark) t

end Text

end Nsql
