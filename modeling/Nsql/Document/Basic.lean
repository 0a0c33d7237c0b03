/-
  File:      Nsql/Document/Basic.lean
  Subject:   Documents: texts with a version, changed by edits.

  The client names places by line and UTF-16 column; a document resolves them to character
  offsets (`Document.offset?`). Its rows are its lines with their breaks, and the number of rows
  is kept beside the text. A batch of edits is applied from first to last, each to the text that
  the ones before it left, and either all of them count or none.
-/
import Nsql.Diagnostic
import Nsql.Text.Basic

namespace Nsql

/-- An open document. -/
structure Document where
  uri : String
  language : String
  version : Int
  lineCount : Nat
  content : Text
  deriving DecidableEq, Repr

namespace Document

/-! ## 1. Rows -/

/-- Puts one more character in front of the first row. -/
def consRow (c : Char) : List Text → List Text
  | [] => [[c]]
  | r :: rs => (c :: r) :: rs

/-- The rows of a text: its lines, each with its break. -/
def rows : Text → List Text
  | [] => [[]]
  | '\r' :: '\n' :: t => ['\r', '\n'] :: rows t
  | c :: t => if c = '\n' ∨ c = '\r' then [c] :: rows t else consRow c (rows t)

@[simp] theorem flatten_consRow (c : Char) (rs : List Text) :
    (consRow c rs).flatten = c :: rs.flatten := by
  cases rs <;> rfl

/-- **Rows lose nothing**: one after the other they are the text. -/
@[simp] theorem flatten_rows (t : Text) : (rows t).flatten = t := by
  fun_induction rows t with
  | case1 => rfl
  | case2 t ih => simp [ih]
  | case3 c t _ _ ih => simp [ih]
  | case4 c t _ _ ih => simp [ih]

/-- A text has at least one row. -/
theorem rows_ne_nil (t : Text) : rows t ≠ [] := by
  fun_cases rows t with
  | case1 => simp
  | case2 t => simp
  | case3 c t _ _ => simp
  | case4 c t _ _ => cases h : rows t <;> simp [consRow]

/-- Characters of line breaks. -/
def isBreak (c : Char) : Bool := c == '\n' || c == '\r'

/-- A row without its break. -/
def bare (row : Text) : Text := Text.dropEndWhile isBreak row

/-- A document that was just opened. -/
def ofText (uri : String) (language : String) (version : Int) (content : Text) : Document :=
  ⟨uri, language, version, (rows content).length, content⟩

/-- A line of a document, without its break. -/
def line? (d : Document) (i : Nat) : Option Text :=
  if i < d.lineCount then (rows d.content)[i]?.map bare else none

/-! ## 2. Places -/

/-- The character offset of a place in a text. A column past the end of the line is the end of the
    line; a line that the text does not have is no place. -/
def offset? (t : Text) (p : Position) : Option Nat :=
  match (rows t)[p.line]? with
  | none => none
  | some row =>
    let first := Text.width ((rows t).take p.line).flatten
    let last := first + Text.width (bare row)
    some (Text.charsWithin t (min (first + p.column) last))

/-! ## 3. Edits -/

/-- An edit: a text in place of a range, or in place of everything. -/
structure Edit where
  range : Option Range
  text : Text
  deriving DecidableEq, Repr

/-- Why a document could not be changed. -/
inductive Error where
  | notFound (uri : String)
  | invalidRange (range : Range)
  deriving DecidableEq, Repr

/-- A place, in words. -/
def positionText (p : Position) : String :=
  "(" ++ toString p.line ++ ", " ++ toString p.column ++ ")"

/-- The words for an error. -/
def Error.message : Error → String
  | .notFound uri => "Document not found: " ++ uri
  | .invalidRange range =>
    "Invalid range: start=" ++ positionText range.start ++ ", end=" ++ positionText range.stop

/-- The text after an edit. A range is refused if one of its ends is no place, or if it ends
    before it starts. -/
def Edit.apply (e : Edit) (t : Text) : Except Error Text :=
  match e.range with
  | none => .ok e.text
  | some range =>
    match offset? t range.start, offset? t range.stop with
    | some start, some stop =>
      if start ≤ stop then .ok (t.take start ++ e.text ++ t.drop stop)
      else .error (.invalidRange range)
    | _, _ => .error (.invalidRange range)

/-- The text after a batch of edits. -/
def applyEdits : List Edit → Text → Except Error Text
  | [], t => .ok t
  | e :: es, t =>
    match e.apply t with
    | .ok t => applyEdits es t
    | .error err => .error err

/-- The document after a batch of edits that takes it to a version. -/
def change (d : Document) (version : Int) (edits : List Edit) : Except Error Document :=
  match applyEdits edits d.content with
  | .ok t => .ok { d with version := version, lineCount := (rows t).length, content := t }
  | .error err => .error err

end Document

end Nsql
