/-
  File:      Nsql/Server/Basic.lean
  Subject:   The server: what it does about each kind of message.

  Each handler takes the server as it is and gives the server as it becomes, with what is sent to
  the client meanwhile, in order. Settings that cannot be used are reported and otherwise ignored.
-/
import Nsql.Server.Message
import Nsql.Wire.Completion
import Nsql.Wire.Params

namespace Nsql

/-- How far a session has come. -/
inductive Phase where
  | uninitialized
  | running
  | shutDown
  | exited
  deriving DecidableEq, Repr

/-- The server. -/
structure Server where
  phase : Phase
  client : ClientAbilities
  workspace : Workspace

namespace Server

/-- The name of the server for programs. -/
def name : String := "nsql-lsp"

/-- The name of the server for people. -/
def displayName : String := "NSQL Language Server"

/-- The version of the server. -/
def version : String := "0.2.0"

/-- The command that tells about the server. -/
def infoCommand : String := "nsql.serverInfo"

/-- The command that checks all documents again. -/
def revalidateCommand : String := "nsql.revalidate"

/-- A server before its first message. -/
def start (host : Host) : Server :=
  ⟨.uninitialized, {}, .ofConfig (.ofEnvironment host.parserVariable)⟩

/-- The name of the validator that the server uses. -/
def activeValidator (host : Host) (s : Server) : String := s.workspace.activeValidator host

/-- The server after a request to its workspace, what the request came to, and what is sent. -/
def request (host : Host) (s : Server) (r : Request) : Server × Outcome × List Outgoing :=
  let reply := s.workspace.handle host r
  ({ s with workspace := reply.workspace }, reply.outcome, reply.published.map .publish)

/-! ## 1. Settings -/

/-- The configuration that settings ask for, if they ask for one and it can be used. -/
def acceptSettings (host : Host) (settings : Json) : Except SettingsError (Option Config) :=
  match Config.ofSettings host.parserVariable settings with
  | .error e => .error e
  | .ok none => .ok none
  | .ok (some config) =>
    match config.verdict with
    | .ok () => .ok (some config)
    | .error e => .error e

/-- Applies settings. A new configuration is announced, and all documents are checked again. -/
def adoptSettings (host : Host) (s : Server) (settings : Json) : Server × List Outgoing :=
  match acceptSettings host settings with
  | .error e =>
    (s, [.showMessage .warning ("Ignoring NSQL settings: " ++ (ServerError.config e).message)])
  | .ok none => (s, [])
  | .ok (some config) =>
    match s.workspace.configure config with
    | (_, false) => (s, [])
    | (w, true) =>
      let s := { s with workspace := w }
      let (s', _, sent) := s.request host .revalidateAll
      (s', .logMessage .info ("Using " ++ s.activeValidator host ++ " NSQL validator") :: sent)

/-- The settings in the client's reply to the question for them. -/
def pulledSettings? : Option ClientReply → Option Json
  | some (some (.arr (v :: _))) =>
    match v with
    | .null => none
    | v => some (.ofMembers [(settingsSection, v)])
  | _ => none

/-- Asks the client for settings and applies those in its reply. -/
def pullSettings (host : Host) (s : Server) (reply : Option ClientReply) : Server × List Outgoing :=
  match pulledSettings? reply with
  | none => (s, [.pullSettings])
  | some settings =>
    let (s, sent) := s.adoptSettings host settings
    (s, .pullSettings :: sent)

/-- New settings were announced. If they are not in the announcement, the client is asked. -/
def changeSettings (host : Host) (s : Server) (replies : List ClientReply) (settings : Json) :
    Server × List Outgoing :=
  if (settings.get? settingsSection).isSome then s.adoptSettings host settings
  else if s.client.configuration then s.pullSettings host replies.head?
  else (s, [])

/-! ## 2. The beginning of a session -/

/-- What the server can do, as JSON. -/
def capabilities (client : ClientAbilities) : Json :=
  let folders :=
    if client.workspaceFolders then
      [("workspace", Json.ofMembers [("workspaceFolders",
        .ofMembers [("supported", .bool true), ("changeNotifications", .bool true)])])]
    else []
  .ofMembers ([("textDocumentSync", .ofNat 2),
    ("completionProvider", .ofMembers [("resolveProvider", .bool true)]),
    ("hoverProvider", .bool true),
    ("executeCommandProvider",
      .ofMembers [("commands", .arr [.str infoCommand, .str revalidateCommand])])] ++ folders)

/-- The first message: notes what the client can do and applies its options. -/
def greet (host : Host) (s : Server) (g : Greeting) : Server × Json × List Outgoing :=
  let s := { s with client := g.client }
  let (s, sent) :=
    match g.options with
    | some options => s.adoptSettings host options
    | none => (s, [])
  (s, .ofMembers [("capabilities", capabilities g.client),
    ("serverInfo", .ofMembers [("name", .str name), ("version", .str version)])], sent)

/-- The client is ready: the server asks to be told of new settings and asks for the present ones,
    as far as the client can do that. -/
def ready (host : Host) (s : Server) (replies : List ClientReply) : Server × List Outgoing :=
  let (registration, replies) :=
    if s.client.dynamicConfiguration then ([Outgoing.register], replies.tail) else ([], replies)
  let (s, sent) := if s.client.configuration then s.pullSettings host replies.head? else (s, [])
  let validator := s.activeValidator host
  (s, registration ++ sent ++
    [.logMessage .info ("NSQL language server ready, using " ++ validator ++ " validator")])

/-! ## 3. Documents -/

/-- A document was opened. -/
def documentOpened (host : Host) (s : Server) (d : Document) : Server × List Outgoing :=
  let (s, _, sent) := s.request host (.openDocument d)
  (s, sent)

/-- A document was changed. An edit that is not possible is reported to the user. -/
def documentChanged (host : Host) (s : Server) (b : Batch) : Server × List Outgoing :=
  match s.request host (.changeDocument b.uri b.version b.edits) with
  | (s, .rejected (.invalidRange range), sent) =>
    (s, sent ++ [.showMessage .error
      ("Failed to update document: " ++ (Document.Error.invalidRange range).message)])
  | (s, _, sent) => (s, sent)

/-- A document was closed. -/
def documentClosed (host : Host) (s : Server) (uri : String) : Server × List Outgoing :=
  let (s, _, sent) := s.request host (.closeDocument uri)
  (s, sent)

/-- What is shown at a place of a document, as JSON. -/
def hover (s : Server) (uri : String) (p : Position) : Json :=
  match s.workspace.document? uri with
  | none => .null
  | some d => .ofOption ((d.hover? p).map Hover.toJson)

/-- What can be inserted, as JSON: every keyword, at any place. -/
def complete : Json := .arr (CompletionItem.offered.map CompletionItem.toJson)

/-! ## 4. Commands -/

/-- Carries out a command: its result, and what is sent. -/
def execute (host : Host) (s : Server) (command : String) :
    Server × Except ServerError Json × List Outgoing :=
  if command = infoCommand then
    let validator := s.activeValidator host
    (s, .ok (.ofMembers [("name", .str displayName), ("id", .str name), ("version", .str version),
        ("status", .str "Active"), ("validator", .str validator)]),
      [.showMessage .info (displayName ++ "\nVersion: " ++ version ++
        "\nStatus: Active\nValidator: " ++ validator)])
  else if command = revalidateCommand then
    let count := s.workspace.documents.length
    let (s, _, sent) := s.request host .revalidateAll
    (s, .ok (.ofMembers [("revalidated", .ofNat count)]),
      sent ++ [.logMessage .info ("Revalidated " ++ toString count ++ " NSQL documents")])
  else (s, .error (.unknownCommand command), [])

end Server

end Nsql
