/-
  File:      Nsql/Json/Form.lean
  Subject:   The forms that a JSON value may be asked to have.

  A form takes a value and gives it back with only what the form knows, or says how the value
  differs. Forms are put together: lists, choices, and records with named fields.

  * `Form.record`: a record is written as an object, or as an array of its fields in their order.
  * `Form.blend`: a record that shares its object with other records is never an array. Its own
    members are looked at first; those of the others are put aside until then.
  * The members of an object are looked at in the order of their keys, and only then is it said
    which one is missing, in the order of the fields.
-/
import Nsql.Json.Mismatch

namespace Nsql

/-- What reading gives. -/
abbrev Json.Decoded (α : Type) := Except Mismatch α

open Json (Decoded)

/-- How a value comes: as it was sent, or out of members that were put aside. -/
inductive Arrival where
  | sent
  | aside
  deriving DecidableEq, Repr

/-- How URIs are read: in the one spelling that stands for a URI, or with the reason why a text is
    none. Two texts are the same URI if they are read alike. -/
abbrev UriReader := String → Except String String

/-- No text is a URI. -/
def UriReader.none : UriReader := fun _ => .error "no URI is asked for"

/-- The manner in which a value is read: how it comes, and how URIs in it are read. -/
structure Manner where
  arrival : Arrival
  uris : UriReader

/-- The same, out of members that were put aside. -/
def Manner.aside (m : Manner) : Manner := { m with arrival := .aside }

/-- A form that a value may have. -/
abbrev Form := Manner → Json → Decoded Json

/-- Reads a value of some form, as it was sent. -/
def Form.decodeWith {α : Type} (uris : UriReader) (form : Form) (build : Json → α) (v : Json) :
    Decoded α :=
  (form ⟨.sent, uris⟩ v).map build

/-- Reads a value of a form that holds no URIs. -/
def Form.decode {α : Type} (form : Form) (build : Json → α) (v : Json) : Decoded α :=
  form.decodeWith .none build v

namespace Form

/-! ## 1. Plain values -/

/-- Any value. -/
def any : Form := fun _ v => .ok v

/-- A string. -/
def string : Form
  | _, .str s => .ok (.str s)
  | _, v => .error (.invalidType v.shape "a string")

/-- A Boolean. -/
def bool : Form
  | _, .bool b => .ok (.bool b)
  | _, v => .error (.invalidType v.shape "a boolean")

/-- An integer between two bounds; `kind` names them. -/
def int (low high : Int) (kind : String) : Form
  | _, .int n => if low ≤ n ∧ n ≤ high then .ok (.int n) else .error (.invalidValue (.int n) kind)
  | _, v => .error (.invalidType v.shape kind)

/-- A signed integer of 32 bits. -/
def int32 : Form := int (-2147483648) 2147483647 "i32"

/-- An unsigned integer of 32 bits. -/
def nat32 : Form := int 0 4294967295 "u32"

/-- An unsigned integer of 64 bits. -/
def nat64 : Form := int 0 18446744073709551615 "u64"

/-- Any number. -/
def number : Form
  | _, .int n => .ok (.int n)
  | _, .real x => .ok (.real x)
  | _, v => .error (.invalidType v.shape "f32")

/-- One of some words. It may also be the key of an object whose only value is null. -/
def word (words : List String) : Form
  | _, .str s => if words.contains s then .ok (.str s) else .error (.unknownVariant s words)
  | _, .obj [(key, v)] =>
    if words.contains key then
      match v with
      | .null => .ok (.str key)
      | v => .error (.invalidType v.shape "unit")
    else .error (.unknownVariant key words)
  | _, .obj _ => .error (.invalidValue .map "map with a single key")
  | _, v => .error (.invalidType v.shape "string or map")

/-! ## 2. Values made of values -/

/-- A list. -/
def list (item : Form) : Form
  | m, .arr l => (l.mapM (item m)).map .arr
  | _, v => .error (.invalidType v.shape "a sequence")

/-- An object from any keys that `key` allows to values of one form. -/
def table (kind : String) (key value : Form) : Form
  | m, .obj l =>
    (l.mapM fun (entry : String × Json) => do
      let _ ← key m (.str entry.1)
      return (entry.1, ← value m entry.2)).map .obj
  | _, v => .error (.invalidType v.shape kind)

/-- A value of a form, or null. -/
def orNull (form : Form) : Form
  | _, .null => .ok .null
  | m, v => form m v

/-- A value of the first form that it has; `name` is what the choice is called. -/
def choice (name : String) (forms : List Form) : Form := fun m v =>
  match forms.findSome? fun form => (form m.aside v).toOption with
  | some v => .ok v
  | none => .error (.noVariant name)

/-- Two numbers. -/
def couple (item : Form) : Form
  | m, .arr [a, b] => return .arr [← item m a, ← item m b]
  | _, v => .error (.invalidType v.shape "an array of length 2")

/-! ## 3. Records -/

/-- Whether a field has to be there. -/
inductive Presence where
  | required
  /-- It may be left out of an object. -/
  | optional
  /-- It may be left out of an object, and at the end of an array. -/
  | assumed
  deriving DecidableEq, Repr

/-- A field of a record. -/
structure Slot where
  name : String
  form : Form
  presence : Presence

/-- A field that has to be there. -/
def Slot.need (name : String) (form : Form) : Slot := ⟨name, form, .required⟩

/-- A field that may be left out or null. -/
def Slot.may (name : String) (form : Form) : Slot := ⟨name, orNull form, .optional⟩

/-- A field that may be left out or null, also at the end of an array. -/
def Slot.late (name : String) (form : Form) : Slot := ⟨name, orNull form, .assumed⟩

/-- A field as it is kept: null is kept only where a value is required. -/
def Slot.keep (f : Slot) (v : Json) : List (String × Json) :=
  match v with
  | .null => if f.presence = .required then [(f.name, .null)] else []
  | v => [(f.name, v)]

/-- A number of elements in words. -/
def elementsText (count : Nat) : String :=
  toString count ++ (if count = 1 then " element" else " elements")

/-- The members of an object that are fields, in the order in which they come. -/
def readMembers (m : Manner) (fields : List Slot) :
    List (String × Json) → Decoded (List (String × Json))
  | [] => .ok []
  | (key, v) :: rest =>
    match fields.find? fun f => f.name == key with
    | none => readMembers m fields rest
    | some f => do
      let v ← f.form m v
      let rest ← readMembers m fields rest
      return f.keep v ++ rest

/-- Complains about the first field that has to be there and is not. -/
def demand (members : List (String × Json)) : List Slot → Decoded Unit
  | [] => .ok ()
  | f :: rest =>
    if f.presence = .required ∧ (members.lookup f.name).isNone then .error (.missingField f.name)
    else demand members rest

/-- What is said of an array with more elements than fields. -/
def surplusText (count : Nat) : Arrival → String
  | .sent => "fewer elements in array"
  | .aside => elementsText count ++ " in sequence"

/-- The elements of an array as fields, of which the first has index `index`; `kind` is what is
    asked for when one is missing. -/
def readItems (m : Manner) (kind : String) :
    (index : Nat) → List Slot → List Json → Decoded (List (String × Json))
  | _, [], [] => .ok []
  | i, [], more => .error (.invalidLength (i + more.length) (surplusText i m.arrival))
  | i, f :: rest, [] =>
    if f.presence = .assumed then readItems m kind (i + 1) rest []
    else .error (.invalidLength i kind)
  | i, f :: rest, v :: vs => do
    let v ← f.form m v
    let rest ← readItems m kind (i + 1) rest vs
    return f.keep v ++ rest

/-- A record. -/
def record (name : String) (fields : List Slot) : Form
  | m, .obj members => do
    let found ← readMembers m fields members
    demand members fields
    return .ofMembers found
  | m, .arr items => do
    let kind := "struct " ++ name ++ " with " ++ elementsText fields.length
    return .ofMembers (← readItems m kind 0 fields items)
  | _, v => .error (.invalidType v.shape ("struct " ++ name))

/-- The members of an object that belong to a part of it. -/
def readPart (m : Manner) (members : List (String × Json)) (fields : List Slot) :
    Decoded (List (String × Json)) := do
  let found ← readMembers m.aside fields members
  demand members fields
  return found

/-- A record with fields of its own and parts that share its object. -/
def blend (name : String) (own : List Slot) (parts : List (List Slot)) : Form
  | m, .obj members => do
    let found ← readMembers m own members
    demand members own
    let others ← parts.mapM (readPart m members)
    return .ofMembers (found ++ others.flatten)
  | _, v => .error (.invalidType v.shape ("struct " ++ name))

/-- A record with fields of its own whose other members all have one form. -/
def extended (name : String) (own : List Slot) (other : Form) : Form
  | m, .obj members => do
    let found ← readMembers m own members
    demand members own
    let rest := members.filter fun entry => own.all fun f => f.name != entry.1
    let others ← rest.mapM fun entry => return (entry.1, ← other m.aside entry.2)
    return .ofMembers (found ++ others)
  | _, v => .error (.invalidType v.shape ("struct " ++ name))

end Form

end Nsql
