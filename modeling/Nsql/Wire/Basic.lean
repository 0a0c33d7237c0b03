/-
  File:      Nsql/Wire/Basic.lean
  Subject:   Places, diagnostics and edits as the client writes and reads them.
-/
import Nsql.Document.Hover
import Nsql.Json.Form

namespace Nsql

open Json (Decoded)

/-! ## 1. Places -/

/-- A place as JSON. -/
def Position.toJson (p : Position) : Json :=
  .ofMembers [("line", .ofNat p.line), ("character", .ofNat p.column)]

/-- A stretch as JSON. -/
def Range.toJson (r : Range) : Json :=
  .ofMembers [("start", r.start.toJson), ("end", r.stop.toJson)]

/-- How a place is written. -/
def Position.form : Form :=
  .record "Position" [.need "line" .nat32, .need "character" .nat32]

/-- The place that a value of its form stands for. -/
def Position.ofJson (v : Json) : Position := ⟨(v.member "line").asNat, (v.member "character").asNat⟩

/-- A place from JSON. -/
def Position.decode : Json → Decoded Position := Position.form.decode ofJson

/-- How a stretch is written. -/
def Range.form : Form :=
  .record "Range" [.need "start" Position.form, .need "end" Position.form]

/-- The stretch that a value of its form stands for. -/
def Range.ofJson (v : Json) : Range := ⟨.ofJson (v.member "start"), .ofJson (v.member "end")⟩

/-- A stretch from JSON. -/
def Range.decode : Json → Decoded Range := Range.form.decode ofJson

/-! ## 2. Findings -/

/-- A diagnostic as JSON. -/
def Diagnostic.toJson (d : Diagnostic) : Json :=
  let code :=
    match d.code with
    | some c => [("code", Json.str c.text)]
    | none => []
  .ofMembers (code ++ [("message", .str d.message), ("range", d.range.toJson),
    ("severity", .ofNat d.severity.number), ("source", .str d.source.text)])

/-- What is shown at a place as JSON. -/
def Hover.toJson (h : Hover) : Json :=
  .ofMembers [("contents", .ofMembers [("kind", .str "markdown"), ("value", .str h.markdown)]),
    ("range", h.range.toJson)]

/-! ## 3. Documents -/

/-- How a URI is written. It is kept in the spelling in which it is read. -/
def Form.uri : Form
  | m, .str s =>
    match m.uris s with
    | .ok uri => .ok (.str uri)
    | .error reason => .error (.badUri reason s)
  | _, v => .error (.invalidType v.shape "a string representing an URL")

/-- A URI from JSON. -/
def decodeUri (uris : UriReader) : Json → Decoded String := Form.uri.decodeWith uris Json.asString

/-- How the document that a message is about is named. -/
def Form.document : Form := .record "TextDocumentIdentifier" [.need "uri" .uri]

namespace Document.Edit

/-- How an edit is written. The length that a client may give with a range says nothing new. -/
def form : Form :=
  .record "TextDocumentContentChangeEvent"
    [.may "range" Range.form, .may "rangeLength" .nat32, .need "text" .string]

/-- The edit that a value of its form stands for. -/
def ofJson (v : Json) : Edit :=
  ⟨(v.get? "range").map Range.ofJson, (v.member "text").asString.toList⟩

/-- A list of edits from JSON. -/
def decodeAll : Json → Decoded (List Edit) :=
  (Form.list form).decode fun v => v.items.map ofJson

end Document.Edit

end Nsql
