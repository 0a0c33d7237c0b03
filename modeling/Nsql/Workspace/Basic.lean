/-
  File:      Nsql/Workspace/Basic.lean
  Subject:   The workspace: open documents and the engine that checks them.

  Whenever a document is opened or changed, or the client asks for it, a pass checks the text of
  the document and publishes the findings with its version; when a document is closed, its
  findings are withdrawn by an empty list without version. `Workspace.handle` deals with one
  request from beginning to end.
-/
import Nsql.Document.Store
import Nsql.Engine.Settings

namespace Nsql

/-- Findings that are sent to the client: they replace those sent before for the same URI. -/
structure Publication where
  uri : String
  diagnostics : List Diagnostic
  version : Option Int
  deriving DecidableEq, Repr

/-- The findings about a version of a document. -/
def Publication.ofDocument (d : Document) (diagnostics : List Diagnostic) : Publication :=
  ⟨d.uri, diagnostics, some d.version⟩

/-- The publication that withdraws the findings about a document. -/
def Publication.clearing (uri : String) : Publication := ⟨uri, [], none⟩

/-- Open documents, and the engine that checks them. An engine that was put in does not follow
    the configuration. -/
structure Workspace where
  documents : Store
  config : Config
  engine : Engine
  followsConfig : Bool

/-- What can be asked of a workspace. -/
inductive Request where
  | openDocument (document : Document)
  | changeDocument (uri : String) (version : Int) (edits : List Document.Edit)
  | closeDocument (uri : String)
  | validate (uri : String)
  | revalidateAll
  | configure (config : Config)
  deriving DecidableEq, Repr

/-- What came of a request. -/
inductive Outcome where
  /-- A pass was made: the number of findings, if they were published. -/
  | validated (count : Option Nat)
  | rejected (error : Document.Error)
  /-- The document was closed; whether it had been open. -/
  | closed (known : Bool)
  /-- All documents were checked: for how many findings were published. -/
  | revalidated (count : Nat)
  /-- The configuration was set; whether it is another one than before. -/
  | configured (changed : Bool)
  deriving DecidableEq, Repr

namespace Workspace

/-- A workspace without documents whose engine follows the configuration. -/
def ofConfig (config : Config) : Workspace := ⟨[], config, .ofConfig config, true⟩

/-- A workspace without documents with an engine of its own. -/
def ofEngine (engine : Engine) : Workspace := ⟨[], .default, engine, false⟩

/-- The name of the validator that would check a text now. -/
def activeValidator (host : Host) (w : Workspace) : String := (w.engine.validator host).name

/-! ## 1. The parts of a request -/

/-- Sets the configuration; the same one again changes nothing. -/
def configure (config : Config) (w : Workspace) : Workspace × Bool :=
  if w.config.same config then (w, false)
  else
    ({ w with
      config := config, engine := if w.followsConfig then .ofConfig config else w.engine }, true)

/-- The document that a pass over a URI would check. -/
def document? (w : Workspace) (uri : String) : Option Document := w.documents.get? uri

/-- The publication of a pass over a document. -/
def pass (host : Host) (w : Workspace) (d : Document) : Publication :=
  .ofDocument d (w.engine.check host d.content)

/-! ## 2. Requests from beginning to end -/

/-- What a request leads to. -/
structure Reply where
  workspace : Workspace
  outcome : Outcome
  /-- What was published, in order. -/
  published : List Publication := []
  /-- The texts that were checked, in order. -/
  checked : List Text := []

/-- The reply to a request that makes passes over some documents. -/
def replyWith (host : Host) (w : Workspace) (ds : List Document) (outcome : Outcome) : Reply :=
  ⟨w, outcome, ds.map (w.pass host), ds.map Document.content⟩

/-- Makes a pass over a URI, if it is open. -/
def recheck (host : Host) (w : Workspace) (uri : String) : Reply :=
  match w.document? uri with
  | none => w.replyWith host [] (.validated none)
  | some d => w.replyWith host [d] (.validated (some (w.engine.check host d.content).length))

/-- A pass changes nothing. -/
@[simp] theorem workspace_recheck (host : Host) (w : Workspace) (uri : String) :
    (w.recheck host uri).workspace = w := by
  unfold recheck
  cases w.document? uri <;> rfl

/-- Deals with a request. -/
def handle (host : Host) (w : Workspace) : Request → Reply
  | .openDocument d => recheck host { w with documents := w.documents.insert d } d.uri
  | .changeDocument uri version edits =>
    match w.documents.update uri version edits with
    | .ok documents => recheck host { w with documents := documents } uri
    | .error e => ⟨w, .rejected e, [], []⟩
  | .closeDocument uri =>
    ⟨{ w with documents := w.documents.erase uri }, .closed (w.documents.has uri),
      [.clearing uri], []⟩
  | .validate uri => recheck host w uri
  | .revalidateAll => w.replyWith host w.documents (.revalidated w.documents.length)
  | .configure config =>
    let (w, changed) := w.configure config
    ⟨w, .configured changed, [], []⟩

end Workspace

end Nsql
