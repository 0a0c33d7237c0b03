/-
  File:      Nsql/Proofs/Server/Session.lean
  Subject:   Sessions keep the client's view exact.

  A `Ledger` is kept by someone who sees what the client sends and nothing of the server: how far
  the session has come, what the client can do, which documents it has opened, as they are after its
  changes, which URIs it has closed, and which configurations it has asked for. The server is then
  compared with the ledger (`Ledger.Kept`). A message is one errand or none (`Phase.errand?`), so
  that what holds of errands holds of messages.

  * `Server.document?_attend` -- what an errand does to the documents;
  * `Server.receive_eq` -- what a message does is what its errand does;
  * `Ledger.Kept.attend`, `Ledger.Kept.receive` -- the server keeps up with the ledger;
  * **`view_stays_exact`** -- so the view is that of the ledger, after every errand and message.
-/
import Nsql.Proofs.Server.Settings
import Nsql.Server.Session

namespace Nsql

open Server (Errand)

/-! ## 1. The documents of a client -/

/-- The documents of a client, by URI. -/
abbrev Documents := String → Option Document

namespace Documents

/-- Another document for a URI, or none. -/
def set (documents : Documents) (uri : String) (d? : Option Document) : Documents :=
  fun other => if uri = other then d? else documents other

/-- A batch of edits. If the document is not open, or they cannot be made, nothing changes. -/
def change (documents : Documents) (b : Batch) : Documents :=
  match documents b.uri with
  | none => documents
  | some d =>
    match d.change b.version b.edits with
    | .ok d' => documents.set b.uri (some d')
    | .error _ => documents

end Documents

namespace Workspace

theorem document?_insert (w : Workspace) (d : Document) :
    document? { w with documents := w.documents.insert d } =
      Documents.set w.document? d.uri (some d) := by
  funext uri
  unfold document? Documents.set
  by_cases h : d.uri = uri
  · subst h
    rw [if_pos rfl, Store.get?_insert_self]
  · rw [if_neg h, Store.get?_insert_of_ne d w.documents h]

theorem document?_erase (w : Workspace) (uri : String) :
    document? { w with documents := w.documents.erase uri } =
      Documents.set w.document? uri none := by
  funext other
  unfold document? Documents.set
  by_cases h : uri = other
  · subst h
    rw [if_pos rfl, Store.get?_erase_self]
  · rw [if_neg h, Store.get?_erase_of_ne w.documents h]

theorem document?_changed (host : Host) (w : Workspace) (b : Batch) :
    (w.handle host (.changeDocument b.uri b.version b.edits)).workspace.document? =
      Documents.change w.document? b := by
  have hlook : w.document? b.uri = w.documents.get? b.uri := rfl
  rw [handle, Store.update, Documents.change, hlook]
  cases hget : w.documents.get? b.uri with
  | none => rfl
  | some d =>
    dsimp only
    cases hchange : d.change b.version b.edits with
    | error => rfl
    | ok d' =>
      have huri : d'.uri = b.uri := (Document.uri_of_change hchange).trans (Store.uri_of_get? hget)
      dsimp only
      rw [← huri, workspace_recheck, document?_insert]

end Workspace

namespace Server

/-- The documents after an errand. -/
def Errand.documentsAfter (documents : Documents) : Errand → Documents
  | .openDocument d => documents.set d.uri (some d)
  | .changeDocument b => documents.change b
  | .closeDocument uri => documents.set uri none
  | _ => documents

/-- Whoever deals with settings leaves the documents alone. -/
theorem documents_of_brings {host : Host} {s : Server} {payload? : Option Json}
    {r : Server × List Outgoing} (h : s.Brings host payload? r) :
    r.1.workspace.documents = s.workspace.documents := by
  cases haccepted : payload?.bind (Config.accepted? host.parserVariable) with
  | none => rw [(h.refused haccepted).1]
  | some config => rw [h.accepted config haccepted, Workspace.documents_configure]

/-- **What an errand does to the documents.** -/
theorem document?_attend (host : Host) (s : Server) (e : Errand) :
    (s.attend host e).1.workspace.document? = e.documentsAfter s.workspace.document? := by
  have hsettings : ∀ {payload? : Option Json}, s.Brings host payload? (s.attend host e) →
      (s.attend host e).1.workspace.document? = s.workspace.document? := by
    intro payload? hbrings
    funext uri
    rw [Workspace.document?, documents_of_brings hbrings, Workspace.document?]
  cases e with
  | greet g => exact hsettings (brings_greet host s g)
  | ready replies => exact hsettings (brings_ready host s replies)
  | changeSettings replies settings =>
    exact hsettings (brings_changeSettings host s replies settings)
  | openDocument d =>
    exact (congrArg Workspace.document? (Workspace.workspace_recheck host _ _)).trans
      (Workspace.document?_insert s.workspace d)
  | changeDocument b =>
    rw [attend, documentChanged_fst]
    exact Workspace.document?_changed host s.workspace b
  | closeDocument uri => exact Workspace.document?_erase s.workspace uri
  | execute command =>
    rw [attend, execute]
    split
    · rfl
    · split <;> rfl
  | hover | complete => rfl

end Server

/-! ## 2. Messages as errands -/

/-- The errand that a notification is. -/
def Notification.errand? (host : Host) (m : Message) (replies : List ClientReply) :
    Notification → Option Errand
  | .initialized => (m.decode decodeReady).toOption.map fun _ => .ready replies
  | .didOpen => (m.decode (decodeOpen host.uris)).toOption.map .openDocument
  | .didChange => (m.decode (Batch.decode host.uris)).toOption.map .changeDocument
  | .didClose => (m.decode (decodeClose host.uris)).toOption.map .closeDocument
  | .didChangeConfiguration => (m.decode decodeSettings).toOption.map (.changeSettings replies)
  | .didChangeWatchedFiles | .didChangeWorkspaceFolders | .ignored => none

/-- The errand that a question is. -/
def Question.errand? (host : Host) (m : Message) : Question → Option Errand
  | .hover => (m.decode (decodeHover host.uris)).toOption.map fun x => .hover x.1 x.2
  | .completion => (m.decode (decodeCompletion host.uris)).toOption.map fun _ => .complete
  | .resolve => none
  | .executeCommand => (m.decode decodeCommand).toOption.map .execute

namespace Phase

/-- The errand that a message of a method is in a phase: the greeting of a client, a notification
    without an id or a question with one, each in its phase, if what comes with it can be read. -/
def errand? (host : Host) (m : Message) (replies : List ClientReply) :
    Phase → Method → Option Errand
  | .uninitialized, .greeting =>
    if m.id.isSome then (m.decode (Greeting.decode host.uris)).toOption.map .greet else none
  | .running, .notification n => if m.id.isSome then none else n.errand? host m replies
  | .running, .question q => if m.id.isSome then q.errand? host m else none
  | _, _ => none

/-- The phase after a message of a method: a greeting counts if it is an errand. -/
def after (e? : Option Errand) : Phase → Method → Phase
  | .exited, _ => .exited
  | _, .exit => .exited
  | .running, .shutdown => .shutDown
  | .uninitialized, .greeting => if e?.isSome then .running else .uninitialized
  | phase, _ => phase

end Phase

namespace Server

/-- The server after an errand, if there is one. -/
def attend? (host : Host) (s : Server) : Option Errand → Server × List Outgoing
  | none => (s, [])
  | some e => s.attend host e

/-- No errand changes the phase. -/
theorem attend?_fst (host : Host) (s : Server) (e? : Option Errand) :
    { (s.attend? host e?).1 with phase := s.phase } = (s.attend? host e?).1 := by
  cases e? with
  | none => rfl
  | some e => rw [attend?, attend_fst]

/-- A notification does what its errand does. -/
theorem notify_eq (host : Host) (s : Server) (m : Message) (replies : List ClientReply)
    (n : Notification) :
    (s.notify host replies m n).1 = (s.attend? host (n.errand? host m replies)).1 ∧
      publications (s.notify host replies m n).2 =
        publications (s.attend? host (n.errand? host m replies)).2 := by
  cases n with
  | initialized =>
    rw [notify, Notification.errand?]
    cases m.decode decodeReady with
    | ok | error => exact ⟨rfl, rfl⟩
  | didOpen =>
    rw [notify, Notification.errand?]
    cases m.decode (decodeOpen host.uris) with
    | ok | error => exact ⟨rfl, rfl⟩
  | didChange =>
    rw [notify, Notification.errand?]
    cases m.decode (Batch.decode host.uris) with
    | ok | error => exact ⟨rfl, rfl⟩
  | didClose =>
    rw [notify, Notification.errand?]
    cases m.decode (decodeClose host.uris) with
    | ok | error => exact ⟨rfl, rfl⟩
  | didChangeConfiguration =>
    rw [notify, Notification.errand?]
    cases m.decode decodeSettings with
    | ok | error => exact ⟨rfl, rfl⟩
  | didChangeWatchedFiles | didChangeWorkspaceFolders =>
    rw [notify]
    split <;> exact ⟨rfl, rfl⟩
  | ignored => exact ⟨rfl, rfl⟩

/-- A question does what its errand does. -/
theorem answer_eq (host : Host) (s : Server) (m : Message) (q : Question) :
    (s.answer host m q).1 = (s.attend? host (q.errand? host m)).1 ∧
      publications (s.answer host m q).2.2 =
        publications (s.attend? host (q.errand? host m)).2 := by
  cases q with
  | hover =>
    rw [answer, Question.errand?]
    cases m.decode (decodeHover host.uris) with
    | ok | error => exact ⟨rfl, rfl⟩
  | completion =>
    rw [answer, Question.errand?]
    cases m.decode (decodeCompletion host.uris) with
    | ok | error => exact ⟨rfl, rfl⟩
  | resolve =>
    rw [answer]
    split <;> exact ⟨rfl, rfl⟩
  | executeCommand =>
    rw [answer, Question.errand?]
    cases m.decode decodeCommand with
    | error => exact ⟨rfl, rfl⟩
    | ok command =>
      simp only [Except.toOption, Option.map_some, attend?, attend]
      split
      all_goals
        rename_i heq
        rw [heq]
        exact ⟨rfl, rfl⟩

/-- The beginning of a session does what its errand does. -/
theorem beginSession_eq (host : Host) (client : ClientAbilities) (w : Workspace) (m : Message)
    (replies : List ClientReply) :
    let s : Server := ⟨.uninitialized, client, w⟩
    let e? := Phase.errand? host m replies .uninitialized .greeting
    (s.beginSession host m).1 =
        { (s.attend? host e?).1 with phase := Phase.after e? .uninitialized .greeting } ∧
      publications (s.beginSession host m).2.2 = publications (s.attend? host e?).2 := by
  dsimp only [beginSession, Phase.errand?]
  cases m.id with
  | none => exact ⟨rfl, rfl⟩
  | some id =>
    dsimp only
    cases m.decode (Greeting.decode host.uris) with
    | ok | error => exact ⟨rfl, rfl⟩

/-- **A message does what its errand does**, and takes the session into its next phase. -/
theorem receive_eq (host : Host) (s : Server) (m : Message) (replies : List ClientReply) :
    let e? := s.phase.errand? host m replies (.ofName m.method)
    (s.receive host m replies).1 =
        { (s.attend? host e?).1 with phase := s.phase.after e? (.ofName m.method) } ∧
      publications (s.receive host m replies).2.2 = publications (s.attend? host e?).2 := by
  unfold receive
  generalize Method.ofName m.method = method
  obtain ⟨phase, client, workspace⟩ := s
  -- in any other phase than its own a message does nothing, and is no errand
  cases method with
  | greeting =>
    cases phase with
    | uninitialized => exact beginSession_eq host client workspace m replies
    | running | shutDown | exited => exact ⟨rfl, rfl⟩
  | shutdown | exit | cancel | unanswered => cases phase <;> exact ⟨rfl, rfl⟩
  | notification n =>
    cases phase with
    | running =>
      cases hid : m.id.isSome with
      | true => simp [whileRunning, Phase.errand?, Phase.after, hid, attend?]
      | false =>
        obtain ⟨hserver, hsent⟩ := notify_eq host ⟨.running, client, workspace⟩ m replies n
        have hkept := attend?_fst host ⟨.running, client, workspace⟩ (n.errand? host m replies)
        simp [whileRunning, Phase.errand?, Phase.after, hid, hserver, hsent, hkept]
    | uninitialized | shutDown | exited => exact ⟨rfl, rfl⟩
  | question q =>
    cases phase with
    | running =>
      cases hid : m.id with
      | none => simp [whileRunning, Phase.errand?, Phase.after, hid, attend?]
      | some id =>
        obtain ⟨hserver, hsent⟩ := answer_eq host ⟨.running, client, workspace⟩ m q
        have hkept := attend?_fst host ⟨.running, client, workspace⟩ (q.errand? host m)
        simp [whileRunning, Phase.errand?, Phase.after, hid, hserver, hsent, hkept]
    | uninitialized | shutDown | exited => exact ⟨rfl, rfl⟩
  | unknown name =>
    cases phase <;> dsimp only <;> cases name.startsWith "$/" <;> exact ⟨rfl, rfl⟩

end Server

/-! ## 3. The ledger of a session -/

/-- What a session has come to, told from what the client sends. -/
structure Ledger where
  phase : Phase
  client : ClientAbilities
  documents : Documents
  /-- The URIs that were closed, whether they were open or not. -/
  closed : List String
  /-- The configurations that were asked for and could be accepted, behind the first one. -/
  asked : List Config

namespace Ledger

/-- Before the first message. -/
def start (host : Host) : Ledger :=
  ⟨.uninitialized, {}, fun _ => none, [], [.ofEnvironment host.parserVariable]⟩

/-- One more errand. -/
def attend (host : Host) (l : Ledger) (e : Errand) : Ledger where
  phase := l.phase
  client := e.clientAfter l.client
  documents := e.documentsAfter l.documents
  closed := l.closed ++ e.closing
  asked := l.asked ++ (e.payload? l.client).toList.filterMap (Config.accepted? host.parserVariable)

/-- One more errand, if there is one. -/
def attend? (host : Host) (l : Ledger) : Option Errand → Ledger
  | none => l
  | some e => l.attend host e

/-- One more message, with what the client replies meanwhile. -/
def receive (host : Host) (l : Ledger) (m : Message × List ClientReply) : Ledger :=
  let method := .ofName m.1.method
  let e? := l.phase.errand? host m.1 m.2 method
  { l.attend? host e? with phase := l.phase.after e? method }

end Ledger

/-- One more message, from beginning to end, with what the client replies meanwhile. -/
def Transcript.receive (host : Host) (t : Transcript) (m : Message × List ClientReply) :
    Transcript :=
  let (server, _, sent) := t.server.receive host m.1 m.2
  ⟨server, t.sent ++ sent⟩

namespace Ledger

/-- **The server has kept up with the ledger**, and shows what is due. -/
structure Kept (host : Host) (l : Ledger) (t : Transcript) : Prop where
  phase : t.server.phase = l.phase
  client : t.server.client = l.client
  documents : t.server.workspace.document? = l.documents
  configured : t.server.Configured l.asked
  shown : t.server.workspace.Shown host l.closed (publications t.sent)

namespace Kept

variable {host : Host} {l : Ledger} {t : Transcript}

theorem start (host : Host) : (Ledger.start host).Kept host (.start host) where
  phase := rfl
  client := rfl
  documents := rfl
  configured := Server.configured_start host
  shown := Workspace.Shown.ofConfig host _

/-- **One errand.** -/
theorem attend (h : l.Kept host t) (e : Errand) :
    (l.attend host e).Kept host (t.attend host e) where
  phase := (congrArg Server.phase (Server.attend_fst host t.server e)).trans h.phase
  client := by
    rw [Ledger.attend, ← h.client]
    exact congrArg Server.client (Server.attend_fst host t.server e)
  documents := by
    rw [Ledger.attend, ← h.documents]
    exact Server.document?_attend host t.server e
  configured := by
    rw [Ledger.attend, ← h.client]
    exact h.configured.attend host e
  shown := by
    rw [Transcript.attend, publications_append]
    exact Server.keeps_attend host t.server e _ _ h.shown

/-- Apart from the phase only the client, the workspace and what was published matter. -/
theorem congr (h : l.Kept host t) (t' : Transcript)
    (hclient : t'.server.client = t.server.client)
    (hworkspace : t'.server.workspace = t.server.workspace)
    (hsent : publications t'.sent = publications t.sent) :
    Kept host { l with phase := t'.server.phase } t' where
  phase := rfl
  client := hclient.trans h.client
  documents := hworkspace ▸ h.documents
  configured := h.configured.congr (by rw [hworkspace]) (by rw [hworkspace]) (by rw [hworkspace])
  shown := by
    rw [hworkspace, hsent]
    exact h.shown

/-- **One message**: its errand, in the phase that the ledger has noted. -/
theorem receive (h : l.Kept host t) (m : Message × List ClientReply) :
    (l.receive host m).Kept host (t.receive host m) := by
  obtain ⟨hserver, hsent⟩ := Server.receive_eq host t.server m.1 m.2
  rw [h.phase] at hserver hsent
  rw [Ledger.receive]
  generalize l.phase.errand? host m.1 m.2 (.ofName m.1.method) = e? at hserver hsent ⊢
  have herrand : (l.attend? host e?).Kept host
      ⟨(t.server.attend? host e?).1, t.sent ++ (t.server.attend? host e?).2⟩ := by
    cases e? with
    | none =>
      rw [Server.attend?, List.append_nil]
      exact h
    | some e => exact h.attend e
  have hafter : (t.receive host m).server =
      { (t.server.attend? host e?).1 with phase := l.phase.after e? (.ofName m.1.method) } :=
    hserver
  have hphase : (t.receive host m).server.phase = l.phase.after e? (.ofName m.1.method) := by
    rw [hafter]
  rw [← hphase]
  refine herrand.congr (t.receive host m) (by rw [hafter]) (by rw [hafter]) ?_
  rw [publications_append, ← hsent, ← publications_append]
  rfl

/-- **Any run**, by induction on it. -/
theorem foldl {α : Type} {act : Transcript → α → Transcript} {note : Ledger → α → Ledger}
    (hstep : ∀ {l t}, l.Kept host t → ∀ a, (note l a).Kept host (act t a)) (as : List α)
    (h : l.Kept host t) : (as.foldl note l).Kept host (as.foldl act t) := by
  induction as generalizing l t with
  | nil => exact h
  | cons a as ih => exact ih (hstep h a)

/-- Who has kept up shows the view of the ledger. -/
theorem inView (h : l.Kept host t) :
    ∃ config, Config.InForce l.asked config ∧ t.server.workspace.engine = .ofConfig config ∧
      InView host (.ofConfig config) l.documents l.closed (publications t.sent) := by
  have hengine := h.configured.follows.2
  refine ⟨t.server.workspace.config, h.configured.inForce, hengine, ?_⟩
  rw [← hengine, ← h.documents]
  exact h.shown.inView

end Kept

end Ledger

/-- **Sessions keep the client's view exact**: after every errand, in whatever order errands come,
    and after every message of a session, the client shows for each URI the findings about the
    document that it has opened and changed, with its version, of the engine for the configuration
    that is in force among those it has asked for; the empty list, if it has closed the URI and the
    URI is not open; and otherwise nothing was published for it. -/
theorem view_stays_exact (host : Host) :
    (∀ errands : List Errand,
      let t := errands.foldl (Transcript.attend host) (.start host)
      let l := errands.foldl (Ledger.attend host) (.start host)
      ∃ config, Config.InForce l.asked config ∧ t.server.workspace.engine = .ofConfig config ∧
        InView host (.ofConfig config) l.documents l.closed (publications t.sent)) ∧
    ∀ messages : List (Message × List ClientReply),
      let t := messages.foldl (Transcript.receive host) (.start host)
      let l := messages.foldl (Ledger.receive host) (.start host)
      ∃ config, Config.InForce l.asked config ∧ t.server.workspace.engine = .ofConfig config ∧
        InView host (.ofConfig config) l.documents l.closed (publications t.sent) :=
  ⟨fun errands => (Ledger.Kept.foldl .attend errands (.start host)).inView,
    fun messages => (Ledger.Kept.foldl .receive messages (.start host)).inView⟩

/-- A notification about a document. -/
def noteAbout (method : String) (document more : List (String × Json)) :
    Message × List ClientReply :=
  (⟨none, method, some (.obj (("textDocument", .obj document) :: more))⟩, [])

/-- A text is put in at a place. -/
def putIn (line column : Nat) (text : String) : String × Json :=
  let place := Json.obj [("line", .ofNat line), ("character", .ofNat column)]
  ("contentChanges",
    .arr [.obj [("range", .obj [("start", place), ("end", place)]), ("text", .str text)]])

/-- A host with a parser that refuses to run, and with two spellings of a URI. -/
def spelling : Host :=
  ⟨[("/opt/p", ⟨fun _ => .refused "no"⟩)], none, none,
    fun uri => .ok (if uri = "FILE:///a" then "file:///a" else uri)⟩

/-- A document is opened, changed at a line that it does not have, changed, checked by another
    parser and closed; and one is closed that was never open. -/
def editing : List (Message × List ClientReply) :=
  [(⟨some (.ofNat 1), "initialize", some (.obj [("capabilities", .obj [])])⟩, []),
    noteAbout "textDocument/didOpen" [("uri", .str "FILE:///a"), ("languageId", .str "nsql"),
      ("version", .ofNat 1), ("text", .str "ASK a")] [],
    noteAbout "textDocument/didChange" [("uri", .str "file:///a"), ("version", .ofNat 7)]
      [putIn 3 0 ";"],
    noteAbout "textDocument/didChange" [("uri", .str "file:///a"), ("version", .ofNat 2)]
      [putIn 0 5 ";"],
    (⟨none, "workspace/didChangeConfiguration",
      some (.obj [("settings", Server.naming "/opt/p")])⟩, []),
    noteAbout "textDocument/didClose" [("uri", .str "FILE:///a")] [],
    noteAbout "textDocument/didClose" [("uri", .str "file:///b")] []]

/-- All that is published in this session, and the document before it is closed. The view is exact
    after each of the messages. -/
theorem view_stays_exact_while_editing :
    publications (editing.foldl (Transcript.receive spelling) (.start spelling)).sent =
        [⟨"file:///a", [Scan.missingTerminator 0 5], some 1⟩, ⟨"file:///a", [], some 2⟩,
          ⟨"file:///a", [⟨.error, ⟨⟨0, 0⟩, ⟨0, 10⟩⟩,
            "NSQL parser failed: failed to start parser: no", some .parserFailure, .server⟩],
            some 2⟩,
          ⟨"file:///a", [], none⟩, ⟨"file:///b", [], none⟩] ∧
      ((editing.take 5).foldl (Ledger.receive spelling) (.start spelling)).documents "file:///a" =
        some (.ofText "file:///a" "nsql" 2 ['A', 'S', 'K', ' ', 'a', ';']) ∧
      ∀ n,
        let t := (editing.take n).foldl (Transcript.receive spelling) (.start spelling)
        let l := (editing.take n).foldl (Ledger.receive spelling) (.start spelling)
        ∃ config, Config.InForce l.asked config ∧ t.server.workspace.engine = .ofConfig config ∧
          InView spelling (.ofConfig config) l.documents l.closed (publications t.sent) :=
  ⟨by decide +kernel, by decide +kernel, fun n => (view_stays_exact spelling).2 (editing.take n)⟩

end Nsql
