/-
  File:      Nsql/Keyword/Catalogue.lean
  Subject:   The keywords of NSQL, by category.

  A keyword may be several words long; its words count by themselves too. Keywords and their words
  are found without regard to the case of the letters A to Z.
-/
import Nsql.Text.Basic

namespace Nsql

/-- What a keyword is for. -/
inductive Category where
  | query
  | clause
  | action
  | operator
  | literal
  | type
  | constraint
  | definition
  deriving DecidableEq, Repr

namespace Category

/-- The categories, in order. -/
def all : List Category :=
  [.query, .clause, .action, .operator, .literal, .type, .constraint, .definition]

/-- The tag of a category. -/
def tag : Category → String
  | .query => "query"
  | .clause => "clause"
  | .action => "action"
  | .operator => "operator"
  | .literal => "literal"
  | .type => "type"
  | .constraint => "constraint"
  | .definition => "definition"

/-- The category with a tag. -/
def ofTag? (tag : String) : Option Category := all.find? fun c => c.tag == tag

/-- A category in a few words. -/
def detail : Category → String
  | .query => "NSQL Query Type"
  | .clause => "NSQL Clause"
  | .action => "NSQL TELL Action"
  | .operator => "NSQL Operator"
  | .literal => "NSQL Literal Value"
  | .type => "NSQL Data Type"
  | .constraint => "NSQL Constraint"
  | .definition => "NSQL Definition Keyword"

/-- What a keyword of the category does. -/
def documentation (label : String) : Category → String
  | .query => "Starts a " ++ label ++ " query."
  | .clause => "Specifies the " ++ label ++ " part of a query."
  | .action => "Performs the " ++ label ++ " action in a TELL query."
  | .operator => "Used in conditions (e.g., WHERE " ++ label ++ " ...)."
  | .literal => "Represents the value " ++ label ++ "."
  | .type => "Specifies the data type " ++ label ++ "."
  | .constraint => "Defines a " ++ label ++ " constraint."
  | .definition => "Used for defining structures like " ++ label ++ "."

end Category

/-- How a client shows a keyword in a list. -/
inductive Symbol where
  | keyword
  | operator
  | value
  | typeParameter
  deriving DecidableEq, Repr

/-- The number of a symbol on the wire. -/
def Symbol.number : Symbol → Nat
  | .keyword => 14
  | .operator => 24
  | .value => 12
  | .typeParameter => 25

/-- A keyword: its words, what it is for, and how it is shown. -/
structure Keyword where
  words : List String
  category : Category
  symbol : Symbol
  deriving DecidableEq, Repr

namespace Keyword

/-- A keyword in full. -/
def label (k : Keyword) : String := String.intercalate " " k.words

/-- What a keyword does. -/
def documentation (k : Keyword) : String := k.category.documentation k.label

/-- The keywords, in the order in which they are offered. -/
def catalogue : List Keyword :=
  [⟨["ASK"], .query, .keyword⟩, ⟨["TELL"], .query, .keyword⟩, ⟨["FIND"], .query, .keyword⟩,
    ⟨["SHOW"], .query, .keyword⟩, ⟨["GET"], .query, .keyword⟩,
    ⟨["FOR"], .clause, .keyword⟩, ⟨["FROM"], .clause, .keyword⟩, ⟨["WHERE"], .clause, .keyword⟩,
    ⟨["WHEN"], .clause, .keyword⟩, ⟨["IF"], .clause, .keyword⟩, ⟨["JOIN"], .clause, .keyword⟩,
    ⟨["ON"], .clause, .keyword⟩, ⟨["GROUP", "BY"], .clause, .keyword⟩,
    ⟨["ORDER", "BY"], .clause, .keyword⟩, ⟨["SORT", "BY"], .clause, .keyword⟩,
    ⟨["LIMIT"], .clause, .keyword⟩, ⟨["AS"], .clause, .keyword⟩,
    ⟨["ADD"], .action, .keyword⟩, ⟨["REMOVE"], .action, .keyword⟩, ⟨["UPDATE"], .action, .keyword⟩,
    ⟨["CREATE"], .action, .keyword⟩, ⟨["RECORD"], .action, .keyword⟩,
    ⟨["FIELD"], .action, .keyword⟩,
    ⟨["AND"], .operator, .operator⟩, ⟨["OR"], .operator, .operator⟩,
    ⟨["NOT"], .operator, .operator⟩,
    ⟨["IN"], .operator, .operator⟩, ⟨["LIKE"], .operator, .operator⟩,
    ⟨["IS", "NULL"], .operator, .operator⟩, ⟨["IS", "NOT", "NULL"], .operator, .operator⟩,
    ⟨["TRUE"], .literal, .value⟩, ⟨["FALSE"], .literal, .value⟩, ⟨["NULL"], .literal, .value⟩,
    ⟨["INTEGER"], .type, .typeParameter⟩, ⟨["DECIMAL"], .type, .typeParameter⟩,
    ⟨["STRING"], .type, .typeParameter⟩, ⟨["BOOLEAN"], .type, .typeParameter⟩,
    ⟨["DATE"], .type, .typeParameter⟩, ⟨["DATETIME"], .type, .typeParameter⟩,
    ⟨["PRIMARY", "KEY"], .constraint, .keyword⟩, ⟨["UNIQUE"], .constraint, .keyword⟩,
    ⟨["INDEX"], .definition, .keyword⟩, ⟨["CONSTRAINT"], .definition, .keyword⟩,
    ⟨["CHECK"], .constraint, .keyword⟩, ⟨["DEFAULT"], .constraint, .keyword⟩,
    ⟨["AUTOINCREMENT"], .constraint, .keyword⟩,
    ⟨["PLEASE"], .clause, .keyword⟩, ⟨["THAT"], .clause, .keyword⟩]

/-- The keywords of a category. -/
def ofCategory (c : Category) : List Keyword := catalogue.filter fun k => k.category == c

/-- Whether two strings differ at most in the case of the letters A to Z. -/
def sameLabel (a b : String) : Bool := a.toList.map Char.toLower == b.toList.map Char.toLower

/-- The keyword with a label. -/
def find? (label : String) : Option Keyword := catalogue.find? fun k => sameLabel k.label label

/-- Whether a word belongs to a keyword. -/
def isWordOfKeyword (word : String) : Bool := catalogue.any fun k => k.words.any (sameLabel · word)

end Keyword

/-! ## Capitals -/

/-- A character in capitals, which may be several. Only those that become letters from A to Z are
    changed: no other one can be part of a keyword. -/
def capitals (c : Char) : List Char :=
  match c with
  | 'ſ' => ['S']
  | 'ı' => ['I']
  | 'ß' => ['S', 'S']
  | 'ﬀ' => ['F', 'F']
  | 'ﬁ' => ['F', 'I']
  | 'ﬂ' => ['F', 'L']
  | 'ﬃ' => ['F', 'F', 'I']
  | 'ﬄ' => ['F', 'F', 'L']
  | 'ﬅ' => ['S', 'T']
  | 'ﬆ' => ['S', 'T']
  | c => [c.toUpper]

/-- What is shown for a word: the keyword it is, the keyword it belongs to, or that it is a
    name. -/
def Keyword.hoverText (word : String) : String :=
  let upper := String.ofList (word.toList.flatMap capitals)
  if isWordOfKeyword upper then
    let title := "**Keyword:** `" ++ upper ++ "`\n\n"
    match find? upper with
    | some k => title ++ k.category.detail ++ "\n\n" ++ k.documentation
    | none => title ++ "NSQL language keyword."
  else "Identifier: `" ++ word ++ "`"

end Nsql
