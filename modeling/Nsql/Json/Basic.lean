/-
  File:      Nsql/Json/Basic.lean
  Subject:   JSON values.

  Numbers keep the form in which they came: an integer is exact, everything written with a
  fraction or an exponent is a floating-point value. The members of an object stand in the order
  of their keys, each key once (`Json.insert`).
-/
import Nsql.Decimal.Shortest

namespace Nsql

/-- A JSON value. -/
inductive Json where
  | null
  | bool (value : Bool)
  | int (value : Int)
  | real (value : Binary64)
  | str (value : String)
  | arr (items : List Json)
  | obj (members : List (String × Json))
  deriving Repr, Inhabited

namespace Json

/-- Puts a member at its place in an ordered list of members; it replaces one of the same key. -/
def insert (key : String) (value : Json) : List (String × Json) → List (String × Json)
  | [] => [(key, value)]
  | (k, v) :: rest =>
    if key = k then (key, value) :: rest
    else if key < k then (key, value) :: (k, v) :: rest
    else (k, v) :: insert key value rest

/-- An object from members in any order; of two with the same key the later one stays. -/
def ofMembers (members : List (String × Json)) : Json :=
  .obj (members.foldl (fun acc m => insert m.1 m.2 acc) [])

/-- The member of an object; `none` for a missing member and for every other value. -/
def get? (key : String) : Json → Option Json
  | .obj members => members.lookup key
  | _ => none

/-- A value that is given: `null` counts as no value. -/
def given? : Json → Option Json
  | .null => none
  | v => some v

/-- The member of an object; `null` where there is none. -/
def member (key : String) (v : Json) : Json := (v.get? key).getD .null

/-- The string that a value is; every other value counts as the empty one. -/
def asString : Json → String
  | .str s => s
  | _ => ""

/-- The integer that a value is; every other value counts as zero. -/
def asInt : Json → Int
  | .int n => n
  | _ => 0

/-- The natural number that a value is; every other value counts as zero. -/
def asNat (v : Json) : Nat := v.asInt.toNat

/-- Whether a value is true; every other value counts as false. -/
def asBool : Json → Bool
  | .bool b => b
  | _ => false

/-- The items of an array; every other value has none. -/
def items : Json → List Json
  | .arr l => l
  | _ => []

/-- The members of an object; every other value has none. -/
def members : Json → List (String × Json)
  | .obj l => l
  | _ => []

/-- A natural number as a value. -/
def ofNat (n : Nat) : Json := .int n

/-- An optional value, with `null` where there is none. -/
def ofOption : Option Json → Json
  | some v => v
  | none => .null

end Json

end Nsql
