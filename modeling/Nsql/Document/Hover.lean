/-
  File:      Nsql/Document/Hover.lean
  Subject:   The word under the cursor, and what is shown for it.

  A name is a word that consists of ASCII letters, digits and underscores and does not start with
  a digit. The cursor is on a name from its first column to the one behind its last character.
-/
import Nsql.Document.Basic
import Nsql.Keyword.Catalogue
import Nsql.Text.Word

namespace Nsql

/-- Characters of names. -/
def isNameChar (c : Char) : Bool := c.isAlphanum || c == '_'

/-- A name on a line and the columns where it starts and ends. -/
structure Name where
  word : Text
  start : Nat
  stop : Nat
  deriving DecidableEq, Repr

namespace Name

/-- The name at the front of a text; `before` is the character before it. -/
def atFront? (before : Option Char) (t : Text) : Option Text :=
  let word := t.takeWhile isNameChar
  match word with
  | [] => none
  | c :: _ =>
    if isEdge before && !c.isDigit && isEdge (t.drop word.length).head? then some word else none

/-- The names of a text that starts at `column` behind the character `before`. -/
def namesFrom : (column : Nat) → (before : Option Char) → Text → List Name
  | _, _, [] => []
  | column, before, c :: t =>
    let rest := namesFrom (column + unitsOf c) (some c) t
    match atFront? before (c :: t) with
    | some word => ⟨word, column, column + Text.width word⟩ :: rest
    | none => rest

/-- The first name of a line that the cursor is on, with its columns as they are counted. -/
def under? (line : Text) (column : Nat) : Option Name :=
  (namesFrom 0 none line).find? fun n => n.start ≤ column && column ≤ n.stop

/-- A name with columns of 32 bits. -/
def cut (n : Name) : Name := { n with start := low32 n.start, stop := low32 n.stop }

/-- The first name of a line that the cursor is on. -/
def at? (line : Text) (column : Nat) : Option Name := (under? line column).map cut

end Name

/-- What is shown at a place: a text in Markdown, and the stretch that it is about. -/
structure Hover where
  markdown : String
  range : Range
  deriving DecidableEq, Repr

/-- What is shown at a place of a document. -/
def Document.hover? (d : Document) (p : Position) : Option Hover :=
  match d.line? p.line with
  | none => none
  | some line =>
    match Name.at? line p.column with
    | none => none
    | some n => some ⟨Keyword.hoverText (String.ofList n.word), .inLine p.line n.start n.stop⟩

end Nsql
