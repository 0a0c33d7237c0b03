/-
  File:      Nsql/Wire/Completion.lean
  Subject:   Completion items: offered without explanation, explained on request.

  A list offers every keyword with a tag of its category. When the client asks about an item, it
  sends the item back, and the explanation is found by the tag. What else the client has put into
  the item comes back to it.
-/
import Nsql.Keyword.Catalogue
import Nsql.Wire.Edit

namespace Nsql

/-- A completion item. `others` are the members that only the client uses. -/
structure CompletionItem where
  label : String
  data : Option Json
  detail : Option String
  documentation : Option String
  others : List (String × Json)

namespace CompletionItem

/-- The item that offers a keyword. -/
def ofKeyword (k : Keyword) : CompletionItem :=
  ⟨k.label, some (.str k.category.tag), none, none, [("kind", .ofNat k.symbol.number)]⟩

/-- The items that are offered, the same at every place. -/
def offered : List CompletionItem := Keyword.catalogue.map ofKeyword

/-- The category that an item is tagged with. -/
def category? (item : CompletionItem) : Option Category :=
  match item.data with
  | some (.str tag) => Category.ofTag? tag
  | _ => none

/-- The item with its explanation. -/
def explain (item : CompletionItem) : CompletionItem :=
  match item.category? with
  | some c =>
    { item with detail := some c.detail, documentation := some (c.documentation item.label) }
  | none =>
    { item with
      detail := some "NSQL Keyword", documentation := some "A keyword in the NSQL language." }

/-! ## On the wire -/

/-- An item as JSON. -/
def toJson (item : CompletionItem) : Json :=
  let optional (name : String) (v : Option Json) : List (String × Json) :=
    match v with
    | some v => [(name, v)]
    | none => []
  .ofMembers ([("label", .str item.label)] ++ optional "data" item.data ++
    optional "detail" (item.detail.map .str) ++
    optional "documentation" (item.documentation.map .str) ++ item.others)

/-- How an edit that inserts an item is written: one range, or one to insert at and one to
    replace. -/
def editForm : Form :=
  .choice "CompletionTextEdit"
    [.textEdit,
     .record "InsertReplaceEdit"
       [.need "newText" .string, .need "insert" Range.form, .need "replace" Range.form]]

/-- How an item is written. -/
def form : Form :=
  .record "CompletionItem"
    [.need "label" .string,
     .may "labelDetails" (.record "CompletionItemLabelDetails"
       [.may "detail" .string, .may "description" .string]),
     .may "kind" .int32, .may "detail" .string, .may "documentation" .documentation,
     .may "deprecated" .bool, .may "preselect" .bool, .may "sortText" .string,
     .may "filterText" .string, .may "insertText" .string, .may "insertTextFormat" .int32,
     .may "insertTextMode" .int32, .may "textEdit" editForm,
     .may "additionalTextEdits" (.list .textEdit), .may "command" .command,
     .may "commitCharacters" (.list .string), .may "data" .any, .may "tags" (.list .int32)]

/-- The members that an item has a place of its own for. -/
def ownMembers : List String := ["label", "data", "detail", "documentation"]

/-- The item that a value of its form stands for; an explanation that it may have is dropped. -/
def ofJson (v : Json) : CompletionItem :=
  ⟨(v.member "label").asString, v.get? "data", none, none,
    v.members.filter fun m => !ownMembers.contains m.1⟩

/-- An item from JSON. -/
def decode : Json → Json.Decoded CompletionItem := form.decode ofJson

end CompletionItem

end Nsql
