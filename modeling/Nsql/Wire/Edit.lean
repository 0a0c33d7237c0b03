/-
  File:      Nsql/Wire/Edit.lean
  Subject:   How edits, commands and explanations are written.

  These are parts of what a client sends back to the server or asks about. The server looks at
  none of them; it only has to know whether they are well written.
-/
import Nsql.Wire.Basic

namespace Nsql.Form

open Slot (need may late)

/-! ## 1. Texts -/

/-- The kinds of marked-up text. -/
def markup : Form := word ["plaintext", "markdown"]

/-- An explanation: plain, or with its kind of markup. -/
def documentation : Form :=
  choice "Documentation"
    [string, record "MarkupContent" [need "kind" markup, need "value" string]]

/-- A name that a client gives to something: a number or a string. -/
def token : Form := choice "NumberOrString" [int32, string]

/-! ## 2. Edits -/

/-- The fields of an edit in one place. -/
def textEditFields : List Slot := [need "range" Range.form, need "newText" string]

/-- An edit in one place. -/
def textEdit : Form := record "TextEdit" textEditFields

/-- An edit that refers to an annotation. -/
def annotatedEdit : Form :=
  blend "AnnotatedTextEdit" [need "annotationId" string] [textEditFields]

/-- Edits of one document. -/
def documentEdit : Form :=
  record "TextDocumentEdit"
    [need "textDocument" (record "OptionalVersionedTextDocumentIdentifier"
       [need "uri" uri, may "version" int32]),
     need "edits" (list (choice "OneOf" [textEdit, annotatedEdit]))]

/-- An object that says by a member which of some records it is. -/
def tagged (records : List (String × List Slot)) : Form
  | m, .obj members =>
    match members.lookup "kind" with
    | some (.str kind) =>
      match records.lookup kind with
      | some fields => return .ofMembers (("kind", .str kind) :: (← readPart m members fields))
      | none => .error (.unknownVariant kind (records.map Prod.fst))
    | some v => .error (.invalidType v.shape "variant identifier")
    | none => .error (.missingField "kind")
  | _, v => .error (.invalidType v.shape "internally tagged enum ResourceOp")

/-- What is done with files. -/
def fileOperation : Form :=
  let overwriting := [may "overwrite" bool, may "ignoreIfExists" bool]
  tagged
    [("create", [need "uri" uri, may "options" (record "CreateFileOptions" overwriting),
       may "annotationId" string]),
     ("rename", [need "oldUri" uri, need "newUri" uri,
       may "options" (record "RenameFileOptions" overwriting), may "annotationId" string]),
     ("delete", [need "uri" uri, may "options" (record "DeleteFileOptions"
       [may "recursive" bool, may "ignoreIfNotExists" bool, may "annotationId" string])])]

/-- Edits of many documents. -/
def workspaceEdit : Form :=
  record "WorkspaceEdit"
    [late "changes" (table "map" uri (list textEdit)),
     may "documentChanges" (choice "DocumentChanges"
       [list documentEdit,
        list (choice "DocumentChangeOperation" [fileOperation, documentEdit])]),
     may "changeAnnotations" (table "a map" string (record "ChangeAnnotation"
       [need "label" string, may "needsConfirmation" bool, may "description" string]))]

/-! ## 3. Commands and findings -/

/-- A command that the client can carry out. -/
def command : Form :=
  record "Command" [need "title" string, need "command" string, may "arguments" (list any)]

/-- A place in any document. -/
def location : Form := record "Location" [need "uri" uri, need "range" Range.form]

/-- A finding that the client was told of. -/
def diagnostic : Form :=
  record "Diagnostic"
    [need "range" Range.form, may "severity" int32, may "code" token,
     may "codeDescription" (record "CodeDescription" [need "href" uri]),
     may "source" string, need "message" string,
     may "relatedInformation" (list (record "DiagnosticRelatedInformation"
       [need "location" location, need "message" string])),
     may "tags" (list int32), may "data" any]

end Nsql.Form
