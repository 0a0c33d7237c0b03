/-
  File:      Nsql/Wire/Params.lean
  Subject:   What comes with the messages of a client that the server acts upon.
-/
import Nsql.Document.Store
import Nsql.Wire.Abilities

namespace Nsql

open Json (Decoded)

/-! ## 1. Documents -/

/-- How the opening of a document is written. -/
def Form.opening : Form :=
  .record "DidOpenTextDocumentParams" [.need "textDocument" (.record "TextDocumentItem"
    [.need "uri" .uri, .need "languageId" .string, .need "version" .int32,
     .need "text" .string])]

/-- The document that is opened. -/
def decodeOpen (uris : UriReader) : Json → Decoded Document := Form.opening.decodeWith uris fun v =>
  let item := v.member "textDocument"
  .ofText (item.member "uri").asString (item.member "languageId").asString
    (item.member "version").asInt (item.member "text").asString.toList

/-- A batch of edits: the document, its new version, and the edits. -/
structure Batch where
  uri : String
  version : Int
  edits : List Document.Edit
  deriving DecidableEq, Repr

namespace Batch

/-- How a batch of edits is written. -/
def form : Form :=
  .record "DidChangeTextDocumentParams"
    [.need "textDocument" (.record "VersionedTextDocumentIdentifier"
       [.need "uri" .uri, .need "version" .int32]),
     .need "contentChanges" (.list Document.Edit.form)]

/-- The batch that a value of its form stands for. -/
def ofJson (v : Json) : Batch :=
  let document := v.member "textDocument"
  ⟨(document.member "uri").asString, (document.member "version").asInt,
    (v.member "contentChanges").items.map Document.Edit.ofJson⟩

/-- What comes with a change of a document. -/
def decode (uris : UriReader) : Json → Decoded Batch := form.decodeWith uris ofJson

end Batch

/-- How the closing of a document is written. -/
def Form.closing : Form := .record "DidCloseTextDocumentParams" [.need "textDocument" .document]

/-- The URI of the document that is closed. -/
def decodeClose (uris : UriReader) : Json → Decoded String :=
  Form.closing.decodeWith uris fun v => ((v.member "textDocument").member "uri").asString

/-! ## 2. Questions -/

namespace Form

open Slot (need may)

/-- The part of a question that says which place it is about. -/
def placePart : List Slot := [need "textDocument" document, need "position" Position.form]

/-- The part of a question under whose name the client is told how it is getting on. -/
def progressPart : List Slot := [may "workDoneToken" token]

/-- The part of a question under whose name the client takes first results. -/
def resultPart : List Slot := [may "partialResultToken" token]

/-- The question what is shown at a place. -/
def hovering : Form := blend "HoverParams" [] [placePart, progressPart]

/-- The question what can be inserted at a place. -/
def completing : Form :=
  blend "CompletionParams"
    [may "context" (record "CompletionContext"
      [need "triggerKind" int32, may "triggerCharacter" string])]
    [placePart, progressPart, resultPart]

/-- A command to be carried out. -/
def executing : Form :=
  blend "ExecuteCommandParams"
    [need "command" string, ⟨"arguments", list any, .assumed⟩] [progressPart]

end Form

/-- The document and the place that a question is about. -/
def placeOf (v : Json) : String × Position :=
  (((v.member "textDocument").member "uri").asString, .ofJson (v.member "position"))

/-- The place of which it is asked what is shown there. -/
def decodeHover (uris : UriReader) : Json → Decoded (String × Position) :=
  Form.hovering.decodeWith uris placeOf

/-- The place of which it is asked what can be inserted there. -/
def decodeCompletion (uris : UriReader) : Json → Decoded (String × Position) :=
  Form.completing.decodeWith uris placeOf

/-- A command to be carried out: its name. -/
def decodeCommand : Json → Decoded String :=
  Form.executing.decode fun v => (v.member "command").asString

/-! ## 3. The client and its workspace -/

/-- How a folder of the workspace is written. -/
def Form.folder : Form := .record "WorkspaceFolder" [.need "uri" .uri, .need "name" .string]

/-- What comes with the first message: what the client can do, and settings. -/
structure Greeting where
  client : ClientAbilities
  options : Option Json

namespace Greeting

/-- How the first message is written. -/
def form : Form :=
  .record "InitializeParams"
    [.may "processId" .nat32, .may "rootPath" .string, .late "rootUri" .uri,
     .may "initializationOptions" .any, .need "capabilities" .abilities,
     .late "trace" (.word ["off", "messages", "verbose"]),
     .may "workspaceFolders" (.list .folder),
     .may "clientInfo" (.record "ClientInfo" [.need "name" .string, .may "version" .string]),
     .may "locale" .string]

/-- The first message. -/
def decode (uris : UriReader) : Json → Decoded Greeting := form.decodeWith uris fun v =>
  ⟨.ofJson (v.member "capabilities"), v.get? "initializationOptions"⟩

end Greeting

/-- The client is ready: nothing comes with that. -/
def decodeReady : Json → Decoded Unit := (Form.record "InitializedParams" []).decode fun _ => ()

/-- New settings of the client. -/
def decodeSettings : Json → Decoded Json :=
  (Form.record "DidChangeConfigurationParams" [.need "settings" .any]).decode
    fun v => v.member "settings"

/-- Files that have changed: how many. -/
def decodeWatched (uris : UriReader) : Json → Decoded Nat :=
  (Form.record "DidChangeWatchedFilesParams" [.need "changes" (.list (.record "FileEvent"
    [.need "uri" .uri, .need "type" .int32]))]).decodeWith uris fun v =>
    (v.member "changes").items.length

/-- Folders that came and went: how many. -/
def decodeFolders (uris : UriReader) : Json → Decoded (Nat × Nat) :=
  (Form.record "DidChangeWorkspaceFoldersParams" [.need "event"
    (.record "WorkspaceFoldersChangeEvent"
      [.need "added" (.list .folder), .need "removed" (.list .folder)])]).decodeWith uris fun v =>
    let event := v.member "event"
    ((event.member "added").items.length, (event.member "removed").items.length)

end Nsql
