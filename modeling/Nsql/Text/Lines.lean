/-
  File:      Nsql/Text/Lines.lean
  Subject:   The lines of a text, and the line that a byte offset falls on.

  A line break is a line feed, a carriage return, or the pair of the two in this order, which
  counts once. `lines` cuts a text at its breaks and drops them; an empty text has one empty
  line, and a text that ends in a break has an empty last line.
-/
import Nsql.Text.Basic

namespace Nsql.Text

/-! ## 1. Cutting at line breaks -/

/-- Puts one more character in front of the first line. -/
def consLine (c : Char) : List Text → List Text
  | [] => [[c]]
  | l :: ls => (c :: l) :: ls

/-- The lines of a text, without their breaks. -/
def lines : Text → List Text
  | [] => [[]]
  | '\r' :: '\n' :: t => [] :: lines t
  | c :: t => if c = '\n' ∨ c = '\r' then [] :: lines t else consLine c (lines t)

theorem lines_ne_nil (t : Text) : lines t ≠ [] := by
  fun_induction lines t with
  | case1 => simp
  | case2 => simp
  | case3 => simp
  | case4 c t _ _ ih => cases h : lines t <;> simp [consLine]

/-- Index of the last line. -/
def lastLine (t : Text) : Nat := (lines t).length - 1

/-- Width of line `i` in UTF-16 units, zero where there is no such line. -/
def lineWidth (ls : List Text) (i : Nat) : Nat :=
  match ls[i]? with
  | some l => width l
  | none => 0

/-! ## 2. Offsets -/

/-- Number of line breaks in the first `offset` bytes. A carriage return that ends those bytes is
    a break of its own, also where a line feed follows it in the text; an offset past the end
    takes the whole text, and one inside a character takes the part of it that stands before. -/
def lineAtByte : Text → Nat → Nat
  | _, 0 => 0
  | [], _ => 0
  | '\r' :: '\n' :: t, n + 1 => if n = 0 then 1 else lineAtByte t (n - 1) + 1
  | c :: t, n + 1 =>
    if c = '\n' ∨ c = '\r' then lineAtByte t n + 1 else lineAtByte t (n + 1 - bytesOf c)

end Nsql.Text
