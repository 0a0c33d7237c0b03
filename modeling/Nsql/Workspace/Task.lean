/-
  File:      Nsql/Workspace/Task.lean
  Subject:   Requests that are dealt with at the same time, step by step.

  A task is a request that is being dealt with. It changes the store in one step and then makes a
  pass: it reads the engine, takes a snapshot of the document, checks the text, waits for its turn
  to publish, compares the version of the document with the one it checked, and publishes or drops
  its findings. Between its steps other tasks may make theirs.

  One assumption is built in: the lock behind the turns to publish is fair, so turns are given in
  the order in which tasks ask for them. `Shared.turns` lists those that have asked, and the first
  of them has the turn until it has published or dropped its findings.
-/
import Nsql.Workspace.Basic

namespace Nsql

/-- Names of tasks. -/
abbrev TaskId := Nat

/-- What all tasks share. -/
structure Shared where
  workspace : Workspace
  /-- The tasks that want to publish; the first one has the turn. -/
  turns : List TaskId
  /-- What was published, in order. -/
  published : List Publication
  /-- The texts that were given to the engine, in order. -/
  checked : List Text

/-- Why a task makes a pass: for one document, or as one of all documents, with those still to
    come and the number of those published so far. -/
inductive Purpose where
  | single
  | each (rest : List String) (published : Nat)
  deriving DecidableEq, Repr

/-- What a task is about to do. -/
inductive Stage where
  | begin (request : Request)
  /-- Read the engine for a pass over a URI. -/
  | readEngine (uri : String) (purpose : Purpose)
  /-- Take a snapshot of the document. -/
  | snapshot (engine : Engine) (uri : String) (purpose : Purpose)
  /-- Check the text of a snapshot. -/
  | check (engine : Engine) (document : Document) (purpose : Purpose)
  /-- Ask for a turn to publish these findings about a snapshot. -/
  | ask (engine : Engine) (document : Document) (diagnostics : List Diagnostic) (purpose : Purpose)
  /-- Compare versions, as soon as it is this task's turn. -/
  | compare (engine : Engine) (document : Document) (diagnostics : List Diagnostic)
      (purpose : Purpose)
  /-- Publish the findings and give the turn away. -/
  | publish (engine : Engine) (document : Document) (diagnostics : List Diagnostic)
      (purpose : Purpose)
  /-- Ask for a turn to withdraw the findings about a document that was closed. -/
  | askToClear (uri : String) (known : Bool)
  /-- Withdraw them, as soon as it is this task's turn. -/
  | waitToClear (uri : String) (known : Bool)
  /-- Withdraw them and give the turn away. -/
  | clear (uri : String) (known : Bool)
  | finished (outcome : Outcome)

namespace Stage

/-- Whether a task has come to its end. -/
def outcome? : Stage → Option Outcome
  | .finished o => some o
  | _ => none

/-- The pass over the next of all documents, or the end. -/
def next : (rest : List String) → (published : Nat) → Stage
  | [], published => .finished (.revalidated published)
  | uri :: rest, published => .readEngine uri (.each rest published)

/-- What follows a pass; `count` is the number of findings that it published. -/
def after (count : Option Nat) : Purpose → Stage
  | .single => .finished (.validated count)
  | .each rest published => next rest (if count.isSome then published + 1 else published)

end Stage

namespace Shared

/-- Before any task has made a step. -/
def ofWorkspace (w : Workspace) : Shared := ⟨w, [], [], []⟩

/-- The same with other documents. -/
def withDocuments (s : Shared) (documents : Store) : Shared :=
  { s with workspace := { s.workspace with documents := documents } }

/-- A task asks for a turn and comes last, behind all that have asked before: the lock is fair. -/
def askTurn (s : Shared) (id : TaskId) : Shared := { s with turns := s.turns ++ [id] }

/-- The task whose turn it is gives it away. -/
def endTurn (s : Shared) : Shared := { s with turns := s.turns.tail }

/-- Whether it is a task's turn. -/
def hasTurn (s : Shared) (id : TaskId) : Bool := s.turns.head? == some id

/-- Sends a publication to the client. -/
def send (s : Shared) (p : Publication) : Shared := { s with published := s.published ++ [p] }

end Shared

/-- The first step of a request. A check of all documents takes them in the order of the store,
    which says nothing: it may take them in any other. -/
def Request.start (s : Shared) : Request → Shared × Stage
  | .openDocument d => (s.withDocuments (s.workspace.documents.insert d), .readEngine d.uri .single)
  | .changeDocument uri version edits =>
    match s.workspace.documents.update uri version edits with
    | .ok documents => (s.withDocuments documents, .readEngine uri .single)
    | .error e => (s, .finished (.rejected e))
  | .closeDocument uri =>
    (s.withDocuments (s.workspace.documents.erase uri),
      .askToClear uri (s.workspace.documents.has uri))
  | .validate uri => (s, .readEngine uri .single)
  | .revalidateAll => (s, .next s.workspace.documents.uris 0)
  | .configure config =>
    let (w, changed) := s.workspace.configure config
    ({ s with workspace := w }, .finished (.configured changed))

/-- One step of a task; `none` if it has to wait for its turn or has come to its end. -/
def Stage.step (host : Host) (id : TaskId) (s : Shared) : Stage → Option (Shared × Stage)
  | .begin request => some (request.start s)
  | .readEngine uri purpose => some (s, .snapshot s.workspace.engine uri purpose)
  | .snapshot engine uri purpose =>
    match s.workspace.documents.get? uri with
    | none => some (s, .after none purpose)
    | some d => some ({ s with checked := s.checked ++ [d.content] }, .check engine d purpose)
  | .check engine d purpose => some (s, .ask engine d (engine.check host d.content) purpose)
  | .ask engine d diagnostics purpose =>
    some (s.askTurn id, .compare engine d diagnostics purpose)
  | .compare engine d diagnostics purpose =>
    if s.hasTurn id then
      if s.workspace.documents.version? d.uri = some d.version then
        some (s, .publish engine d diagnostics purpose)
      else some (s.endTurn, .after none purpose)
    else none
  | .publish _ d diagnostics purpose =>
    some ((s.send (.ofDocument d diagnostics)).endTurn, .after (some diagnostics.length) purpose)
  | .askToClear uri known => some (s.askTurn id, .waitToClear uri known)
  | .waitToClear uri known => if s.hasTurn id then some (s, .clear uri known) else none
  | .clear uri known => some ((s.send (.clearing uri)).endTurn, .finished (.closed known))
  | .finished _ => none

end Nsql
