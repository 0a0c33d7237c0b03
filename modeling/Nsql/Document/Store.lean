/-
  File:      Nsql/Document/Store.lean
  Subject:   The open documents, one for each URI.

  A store lists the documents in the order in which they were opened; a document that is opened
  again takes the place of the old one.
-/
import Nsql.Document.Basic

namespace Nsql

/-- The open documents. -/
abbrev Store := List Document

namespace Store

/-- The document of a URI. -/
def get? (uri : String) : Store → Option Document
  | [] => none
  | d :: s => if d.uri = uri then some d else get? uri s

/-- Adds a document, or puts it in place of the one with its URI. -/
def insert (d : Document) : Store → Store
  | [] => [d]
  | e :: s => if e.uri = d.uri then d :: s else e :: insert d s

/-- Takes the document of a URI away. -/
def erase (uri : String) : Store → Store
  | [] => []
  | d :: s => if d.uri = uri then erase uri s else d :: erase uri s

/-! ## 1. What is found after a change -/

@[simp] theorem get?_nil (uri : String) : get? uri [] = none := rfl

/-- What was added is found. -/
@[simp] theorem get?_insert_self (d : Document) (s : Store) :
    get? d.uri (insert d s) = some d := by
  induction s with
  | nil => simp [insert, get?]
  | cons e s ih =>
    by_cases h : e.uri = d.uri
    · simp [insert, get?, h]
    · simp [insert, get?, h, ih]

/-- Adding a document leaves those of other URIs alone. -/
theorem get?_insert_of_ne (d : Document) (s : Store) {uri : String} (hne : d.uri ≠ uri) :
    get? uri (insert d s) = get? uri s := by
  induction s with
  | nil => simp [insert, get?, hne]
  | cons e s ih =>
    by_cases h : e.uri = d.uri
    · simp [insert, get?, h, hne]
    · simp only [insert, h, if_false, get?, ih]

/-- What was taken away is not found. -/
@[simp] theorem get?_erase_self (uri : String) (s : Store) : get? uri (erase uri s) = none := by
  induction s with
  | nil => rfl
  | cons d s ih =>
    by_cases h : d.uri = uri
    · simp [erase, h, ih]
    · simp [erase, get?, h, ih]

/-- Taking a document away leaves those of other URIs alone. -/
theorem get?_erase_of_ne (s : Store) {uri other : String} (hne : uri ≠ other) :
    get? other (erase uri s) = get? other s := by
  induction s with
  | nil => rfl
  | cons d s ih =>
    by_cases h : d.uri = uri
    · simp [erase, get?, h, hne, ih]
    · simp only [erase, h, if_false, get?, ih]

/-- A document is found under its own URI. -/
theorem uri_of_get? {uri : String} {s : Store} {d : Document} (h : get? uri s = some d) :
    d.uri = uri := by
  induction s with
  | nil => simp at h
  | cons e s ih =>
    by_cases he : e.uri = uri
    · simp only [get?, he, if_true, Option.some.injEq] at h
      exact h ▸ he
    · simp only [get?, he, if_false] at h
      exact ih h

/-! ## 2. Questions about a store -/

/-- Whether a URI is open. -/
def has (uri : String) (s : Store) : Bool := (s.get? uri).isSome

/-- The version of a document. -/
def version? (uri : String) (s : Store) : Option Int := (s.get? uri).map Document.version

/-- The URIs that are open. -/
def uris (s : Store) : List String := s.map Document.uri

/-- What is found is listed. -/
theorem mem_uris_of_get? {uri : String} {s : Store} {d : Document} (h : s.get? uri = some d) :
    uri ∈ s.uris := by
  induction s with
  | nil => simp at h
  | cons e s ih =>
    by_cases he : e.uri = uri
    · exact he ▸ List.mem_cons_self
    · simp only [get?, he, if_false] at h
      exact List.mem_cons_of_mem _ (ih h)

/-- Changes the document of a URI by a batch of edits. -/
def update (uri : String) (version : Int) (edits : List Document.Edit) (s : Store) :
    Except Document.Error Store :=
  match s.get? uri with
  | none => .error (.notFound uri)
  | some d =>
    match d.change version edits with
    | .ok d => .ok (s.insert d)
    | .error e => .error e

end Store

end Nsql
