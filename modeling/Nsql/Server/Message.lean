/-
  File:      Nsql/Server/Message.lean
  Subject:   What server and client send each other.

  A message of the client may ask for a response, and then has an id. The server responds with a
  result or an error, and sends messages of its own (`Outgoing`), some of which the client has to
  reply to.
-/
import Nsql.Json.Printer
import Nsql.Wire.Basic
import Nsql.Workspace.Basic

namespace Nsql

/-! ## 1. From the client -/

/-- A message of the client. -/
structure Message where
  /-- The name under which it wants a response. -/
  id : Option Json
  method : String
  params : Option Json

/-- What the client replies to a request of the server: a result, or none if it fails. -/
abbrev ClientReply := Option Json

/-! ## 2. Responses -/

/-- Why something that the client wants cannot be done. -/
inductive ServerError where
  | config (e : SettingsError)
  | document (e : Document.Error)
  | unknownCommand (name : String)
  deriving DecidableEq, Repr

/-- The words for an error. -/
def ServerError.message : ServerError → String
  | .config e => "Configuration error: " ++ e.message
  | .document e => "Document error: " ++ e.message
  | .unknownCommand name => "Unknown command: " ++ name

/-- Why a request is refused. -/
inductive Refusal where
  /-- It came before the first message. -/
  | notInitialized
  /-- It came twice, or after the end of the session. -/
  | invalidRequest
  /-- There is no such method. -/
  | unknownMethod (name : String)
  /-- The method is known, and the server has nothing to say about it. -/
  | unimplemented
  | missingParams
  | unexpectedParams (params : Json)
  | undecodable (m : Mismatch)
  | failed (e : ServerError)

namespace Refusal

/-- The number of a refusal. -/
def code : Refusal → Int
  | .notInitialized => -32002
  | .invalidRequest => -32600
  | .unknownMethod _ => -32601
  | .unimplemented => -32601
  | .missingParams => -32602
  | .unexpectedParams _ => -32602
  | .undecodable _ => -32602
  | .failed _ => -32602

/-- The words for a refusal. -/
def message : Refusal → String
  | .notInitialized => "Server not initialized"
  | .invalidRequest => "Invalid request"
  | .unknownMethod _ => "Method not found"
  | .unimplemented => "Method not found"
  | .missingParams => "Missing params field"
  | .unexpectedParams params => "Unexpected params: " ++ params.render
  | .undecodable m => m.message
  | .failed e => e.message

/-- A refusal as JSON; one of an unknown method names it. -/
def toJson (r : Refusal) : Json :=
  let data :=
    match r with
    | .unknownMethod name => [("data", Json.str name)]
    | _ => []
  .ofMembers ([("code", .int r.code), ("message", .str r.message)] ++ data)

end Refusal

/-- What the server says to a message. -/
inductive Response where
  | silence
  | result (id : Json) (value : Json)
  | refusal (id : Json) (reason : Refusal)
  /-- The session is over. -/
  | exited

/-- A response as JSON; null for none. -/
def Response.toJson : Response → Json
  | .silence => .null
  | .result id value => .ofMembers [("id", id), ("jsonrpc", .str "2.0"), ("result", value)]
  | .refusal id reason => .ofMembers [("id", id), ("jsonrpc", .str "2.0"), ("error", reason.toJson)]
  | .exited => .ofMembers [("exited", .str "language server has exited")]

/-! ## 3. To the client -/

/-- How a message to the user is shown. -/
inductive MessageKind where
  | error
  | warning
  | info
  | log
  deriving DecidableEq, Repr

/-- The number of a kind on the wire. -/
def MessageKind.number : MessageKind → Nat
  | .error => 1
  | .warning => 2
  | .info => 3
  | .log => 4

/-- What the server sends of its own accord. -/
inductive Outgoing where
  | publish (p : Publication)
  | showMessage (kind : MessageKind) (text : String)
  | logMessage (kind : MessageKind) (text : String)
  /-- Asks to be told of new settings. -/
  | register
  /-- Asks for the settings. -/
  | pullSettings
  deriving DecidableEq, Repr

namespace Outgoing

/-- The method of a message. -/
def method : Outgoing → String
  | .publish _ => "textDocument/publishDiagnostics"
  | .showMessage _ _ => "window/showMessage"
  | .logMessage _ _ => "window/logMessage"
  | .register => "client/registerCapability"
  | .pullSettings => "workspace/configuration"

/-- Whether the client has to reply. -/
def isRequest : Outgoing → Bool
  | .register => true
  | .pullSettings => true
  | _ => false

/-- The kind and the text of a message to the user as JSON. -/
def messageParams (kind : MessageKind) (text : String) : Json :=
  .ofMembers [("type", .ofNat kind.number), ("message", .str text)]

/-- What comes with a message, as JSON. -/
def params : Outgoing → Json
  | .publish p =>
    let version :=
      match p.version with
      | some v => [("version", Json.int v)]
      | none => []
    .ofMembers ([("uri", .str p.uri),
      ("diagnostics", .arr (p.diagnostics.map Diagnostic.toJson))] ++ version)
  | .showMessage kind text => messageParams kind text
  | .logMessage kind text => messageParams kind text
  | .register =>
    .ofMembers [("registrations", .arr [.ofMembers [("id", .str "nsql-configuration"),
      ("method", .str "workspace/didChangeConfiguration")]])]
  | .pullSettings =>
    .ofMembers [("items", .arr [.ofMembers [("section", .str settingsSection)]])]

end Outgoing

end Nsql
