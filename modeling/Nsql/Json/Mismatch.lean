/-
  File:      Nsql/Json/Mismatch.lean
  Subject:   How a JSON value can differ from the form that is asked for.

  A reader of typed values asks for a form (`expected`) and meets a value; what it tells about the
  value is its `Shape`. The wording of every complaint is in `Shape.text` and `Mismatch.message`.
-/
import Nsql.Json.Basic
import Nsql.Text.Quoted

namespace Nsql

/-- What a complaint tells about the value that was met. -/
inductive Shape where
  | null
  | bool (value : Bool)
  | int (value : Int)
  | real (value : Binary64)
  | str (value : String)
  | seq
  | map
  deriving DecidableEq, Repr

/-- A value that does not have the form asked for. -/
inductive Mismatch where
  /-- The value is of another kind. -/
  | invalidType (found : Shape) (expected : String)
  /-- The kind is right, the value is out of bounds. -/
  | invalidValue (found : Shape) (expected : String)
  /-- A sequence has another number of elements. -/
  | invalidLength (found : Nat) (expected : String)
  | missingField (name : String)
  | duplicateField (name : String)
  /-- A word is none of those that are allowed. -/
  | unknownVariant (found : String) (allowed : List String)
  /-- A value has none of the forms between which there is a choice. -/
  | noVariant (choice : String)
  /-- A string that should be a URI is none. -/
  | badUri (reason found : String)
  deriving DecidableEq, Repr

/-- The shape of a value. -/
def Json.shape : Json → Shape
  | .null => .null
  | .bool b => .bool b
  | .int n => .int n
  | .real x => .real x
  | .str s => .str s
  | .arr _ => .seq
  | .obj _ => .map

/-- The words for a shape. -/
def Shape.text : Shape → String
  | .null => "null"
  | .bool b => "boolean `" ++ (if b then "true" else "false") ++ "`"
  | .int n => "integer `" ++ toString n ++ "`"
  | .real x => "floating point `" ++ x.text ++ "`"
  | .str s => "string " ++ Quoted.text s
  | .seq => "sequence"
  | .map => "map"

/-- A word between backticks. -/
def Mismatch.quoteWord (word : String) : String := "`" ++ word ++ "`"

/-- The words that are allowed, as a complaint lists them. -/
def Mismatch.allowedText : List String → String
  | [] => "there are no variants"
  | [a] => "expected " ++ quoteWord a
  | [a, b] => "expected " ++ quoteWord a ++ " or " ++ quoteWord b
  | words => "expected one of " ++ String.intercalate ", " (words.map quoteWord)

/-- The words for a complaint. -/
def Mismatch.message : Mismatch → String
  | .invalidType found expected => "invalid type: " ++ found.text ++ ", expected " ++ expected
  | .invalidValue found expected => "invalid value: " ++ found.text ++ ", expected " ++ expected
  | .invalidLength found expected =>
    "invalid length " ++ toString found ++ ", expected " ++ expected
  | .missingField name => "missing field `" ++ name ++ "`"
  | .duplicateField name => "duplicate field `" ++ name ++ "`"
  | .unknownVariant found allowed =>
    "unknown variant " ++ quoteWord found ++ ", " ++ allowedText allowed
  | .noVariant choice => "data did not match any variant of untagged enum " ++ choice
  | .badUri reason found => reason ++ ": " ++ Quoted.text found

end Nsql
