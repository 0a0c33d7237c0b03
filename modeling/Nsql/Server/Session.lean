/-
  File:      Nsql/Server/Session.lean
  Subject:   Sessions: which messages are dealt with when, and what is said to them.

  A session begins with `initialize` and ends with `shutdown` and `exit`. A message with an id is
  a request and gets a response; one without is a notification and gets none. Whether the session
  has come far enough is asked first, then whether the message has an id exactly if its method is
  one of a request, and last whether what comes with it can be read. A notification that has an id
  is refused, whatever comes with it; a request that has none is passed over.
-/
import Nsql.Server.Basic
import Nsql.Wire.Unanswered

namespace Nsql

/-! ## 1. Methods -/

/-- The notifications that the server knows. -/
inductive Notification where
  | initialized
  | didOpen
  | didChange
  | didClose
  | didChangeConfiguration
  | didChangeWatchedFiles
  | didChangeWorkspaceFolders
  /-- One that the server has nothing to do about. -/
  | ignored
  deriving DecidableEq, Repr

/-- The requests that the server answers during a session. -/
inductive Question where
  | hover
  | completion
  | resolve
  | executeCommand
  deriving DecidableEq, Repr

/-- What a method is. -/
inductive Method where
  | greeting
  | shutdown
  | exit
  | notification (n : Notification)
  | question (q : Question)
  /-- The client does not want a response any more; responses come at once, so it is too late. -/
  | cancel
  /-- A request that the server does not answer, with its form. -/
  | unanswered (form : Form)
  | unknown (name : String)

namespace Method

/-- Notifications that the server has nothing to do about. -/
def ignoredNames : List String :=
  ["textDocument/willSave", "textDocument/didSave", "workspace/didCreateFiles",
    "workspace/didRenameFiles", "workspace/didDeleteFiles"]

/-- The method with a name. -/
def ofName (name : String) : Method :=
  match name with
  | "initialize" => .greeting
  | "shutdown" => .shutdown
  | "exit" => .exit
  | "initialized" => .notification .initialized
  | "textDocument/didOpen" => .notification .didOpen
  | "textDocument/didChange" => .notification .didChange
  | "textDocument/didClose" => .notification .didClose
  | "workspace/didChangeConfiguration" => .notification .didChangeConfiguration
  | "workspace/didChangeWatchedFiles" => .notification .didChangeWatchedFiles
  | "workspace/didChangeWorkspaceFolders" => .notification .didChangeWorkspaceFolders
  | "textDocument/hover" => .question .hover
  | "textDocument/completion" => .question .completion
  | "completionItem/resolve" => .question .resolve
  | "workspace/executeCommand" => .question .executeCommand
  | "$/cancelRequest" => .cancel
  | name =>
    if ignoredNames.contains name then .notification .ignored
    else
      match Form.unanswered.lookup name with
      | some form => .unanswered form
      | none => .unknown name

end Method

/-! ## 2. Messages of a running session -/

/-- What comes with a message, decoded. -/
def Message.decode {α : Type} (m : Message) (decode : Json → Json.Decoded α) : Except Refusal α :=
  match m.params with
  | none => .error .missingParams
  | some params =>
    match decode params with
    | .ok a => .ok a
    | .error e => .error (.undecodable e)

/-- What the server says to a request under an id. -/
def Response.ofResult (id : Json) : Except Refusal Json → Response
  | .ok v => .result id v
  | .error r => .refusal id r

/-- The refusal of a message, if it wants a response. -/
def Message.refuse (m : Message) (reason : Refusal) : Response :=
  match m.id with
  | some id => .refusal id reason
  | none => .silence

namespace Server

/-- Acts upon a notification; one that cannot be read is ignored. -/
def notify (host : Host) (s : Server) (replies : List ClientReply) (m : Message) :
    Notification → Server × List Outgoing
  | .initialized =>
    match m.decode decodeReady with
    | .ok () => s.ready host replies
    | .error _ => (s, [])
  | .didOpen =>
    match m.decode (decodeOpen host.uris) with
    | .ok d => s.documentOpened host d
    | .error _ => (s, [])
  | .didChange =>
    match m.decode (Batch.decode host.uris) with
    | .ok b => s.documentChanged host b
    | .error _ => (s, [])
  | .didClose =>
    match m.decode (decodeClose host.uris) with
    | .ok uri => s.documentClosed host uri
    | .error _ => (s, [])
  | .didChangeConfiguration =>
    match m.decode decodeSettings with
    | .ok settings => s.changeSettings host replies settings
    | .error _ => (s, [])
  | .didChangeWatchedFiles =>
    match m.decode (decodeWatched host.uris) with
    | .ok _ => (s, [.logMessage .log "Received a file change event"])
    | .error _ => (s, [])
  | .didChangeWorkspaceFolders =>
    match m.decode (decodeFolders host.uris) with
    | .ok _ => (s, [.logMessage .log "Workspace folder change event received"])
    | .error _ => (s, [])
  | .ignored => (s, [])

/-- Answers a request. -/
def answer (host : Host) (s : Server) (m : Message) :
    Question → Server × Except Refusal Json × List Outgoing
  | .hover =>
    match m.decode (decodeHover host.uris) with
    | .ok (uri, p) => (s, .ok (s.hover uri p), [])
    | .error r => (s, .error r, [])
  | .completion =>
    match m.decode (decodeCompletion host.uris) with
    | .ok _ => (s, .ok complete, [])
    | .error r => (s, .error r, [])
  | .resolve =>
    match m.decode CompletionItem.decode with
    | .ok item => (s, .ok item.explain.toJson, [])
    | .error r => (s, .error r, [])
  | .executeCommand =>
    match m.decode decodeCommand with
    | .error r => (s, .error r, [])
    | .ok command =>
      match s.execute host command with
      | (s, .ok v, sent) => (s, .ok v, sent)
      | (s, .error e, sent) => (s, .error (.failed e), sent)

/-- What the server says to a request that it does not answer. -/
def refuseUnanswered (host : Host) (m : Message) (form : Form) : Refusal :=
  match m.decode (form ⟨.sent, host.uris⟩) with
  | .ok _ => .unimplemented
  | .error r => r

/-! ## 3. The course of a session -/

/-- A message that is only dealt with while the session runs. -/
def whileRunning (s : Server) (m : Message) (act : Server × Response × List Outgoing) :
    Server × Response × List Outgoing :=
  match s.phase with
  | .uninitialized => (s, m.refuse .notInitialized, [])
  | .running => act
  | .shutDown => (s, m.refuse .invalidRequest, [])
  | .exited => (s, .exited, [])

/-- Begins a session. If the message cannot be read, the session has not begun. -/
def beginSession (host : Host) (s : Server) (m : Message) : Server × Response × List Outgoing :=
  match s.phase, m.id with
  | .uninitialized, some id =>
    match m.decode (Greeting.decode host.uris) with
    | .error r => (s, .refusal id r, [])
    | .ok g =>
      let (s, result, sent) := s.greet host g
      ({ s with phase := .running }, .result id result, sent)
  | .uninitialized, none => (s, .silence, [])
  | _, _ => (s, m.refuse .invalidRequest, [])

/-- Ends a session. Nothing may come with the message, but the session ends all the same. -/
def finish (s : Server) (m : Message) : Server × Response × List Outgoing :=
  let response :=
    match m.id, m.params with
    | none, _ => .silence
    | some id, none => .result id .null
    | some id, some params => .refusal id (.unexpectedParams params)
  whileRunning s m ({ s with phase := .shutDown }, response, [])

/-- Deals with a message: the server as it becomes, its response, and what it sends meanwhile.
    `replies` are what the client replies to requests of the server, in order. -/
def receive (host : Host) (s : Server) (m : Message) (replies : List ClientReply) :
    Server × Response × List Outgoing :=
  if s.phase = .exited then (s, .exited, [])
  else
    match Method.ofName m.method with
    | .greeting => s.beginSession host m
    | .shutdown => s.finish m
    | .exit => ({ s with phase := .exited }, .silence, [])
    | .notification n =>
      s.whileRunning m <|
        if m.id.isSome then (s, m.refuse .invalidRequest, [])
        else
          let (s, sent) := s.notify host replies m n
          (s, .silence, sent)
    | .cancel => (s, m.refuse .invalidRequest, [])
    | .question q =>
      s.whileRunning m <|
        match m.id with
        | none => (s, .silence, [])
        | some id =>
          let (s, result, sent) := s.answer host m q
          (s, .ofResult id result, sent)
    | .unanswered form => s.whileRunning m (s, m.refuse (refuseUnanswered host m form), [])
    | .unknown name =>
      if name.startsWith "$/" then (s, .silence, []) else (s, m.refuse (.unknownMethod name), [])

end Server

end Nsql
