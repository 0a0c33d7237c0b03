/-
  File:      Nsql/Sample/Cursor.lean
  Subject:   Texts with a mark where the cursor is.
-/
import Nsql.Diagnostic
import Nsql.Text.Basic
import Nsql.Text.Quoted

namespace Nsql.Cursor

/-- The mark. -/
def mark : Char := '|'

/-- The text before the first mark and the text behind it. -/
def split? : Text → Option (Text × Text)
  | [] => none
  | c :: t => if c = mark then some ([], t) else (split? t).map fun p => (c :: p.1, p.2)

/-- The number of bytes before the mark. -/
def offset? (t : Text) : Option Nat := (split? t).map fun p => Text.size p.1

/-- The text without its first mark. -/
def erase (t : Text) : Text :=
  match split? t with
  | some (before, behind) => before ++ behind
  | none => t

/-- The place at the end of a text, whose lines end at line feeds only. -/
def endOf (t : Text) : Position :=
  ⟨t.count '\n', Text.width (t.reverse.takeWhile (· ≠ '\n')).reverse⟩

/-- The text without its mark, and the place of the mark. -/
def locate? (t : Text) : Option (Text × Position) :=
  (split? t).map fun p => (p.1 ++ p.2, endOf p.1)

/-- The complaint about a text without a mark. -/
def missing (t : Text) : String :=
  "no cursor marker '" ++ String.singleton mark ++ "' in " ++ Quoted.text (String.ofList t)

end Nsql.Cursor
