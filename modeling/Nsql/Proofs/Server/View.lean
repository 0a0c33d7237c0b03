/-
  File:      Nsql/Proofs/Server/View.lean
  Subject:   Every errand of the client keeps its view exact.

  Every handler of the server keeps the view exact (`Server.Keeps`): what it sends makes up for
  what it does to the documents and to the engine. Settings come in many ways (with the first
  message, in a reply, in an announcement); those that are absent, of another form, not usable or
  the same as before change and publish nothing, and those that do change something are followed
  by a check of all documents.

  * `Server.Errand`, `Server.attend` -- what a client wants, and what is done about it;
  * `Server.keeps_attend` -- one errand of the client, in whatever order errands come.
-/
import Nsql.Proofs.Workspace.View
import Nsql.Server.Basic

namespace Nsql

/-! ## 1. What is published -/

/-- The publication that a message to the client is. -/
def Outgoing.publication? : Outgoing → Option Publication
  | .publish p => some p
  | _ => none

/-- The publications among what is sent, in order. -/
def publications (sent : List Outgoing) : List Publication := sent.filterMap Outgoing.publication?

theorem publications_append (sent sent' : List Outgoing) :
    publications (sent ++ sent') = publications sent ++ publications sent' :=
  List.filterMap_append

theorem publications_publish (ps : List Publication) :
    publications (ps.map .publish) = ps := by
  induction ps with
  | nil => rfl
  | cons p ps ih =>
    rw [List.map_cons, publications, List.filterMap_cons]
    exact congrArg (p :: ·) ih

/-- What is no publication does not count. -/
theorem publications_concat_of_other {o : Outgoing} (ho : o.publication? = none)
    (sent : List Outgoing) : publications (sent ++ [o]) = publications sent := by
  rw [publications_append]
  simp [publications, ho]

namespace Server

/-! ## 2. Handlers -/

/-- **A handler keeps the view exact**: if it was exact before, it is after what the handler
    does and sends. `closing` are the URIs that it closes. -/
def Keeps (host : Host) (s : Server) (closing : List String) (r : Server × List Outgoing) : Prop :=
  ∀ closed published, s.workspace.Shown host closed published →
    r.1.workspace.Shown host (closed ++ closing) (published ++ publications r.2)

section Handlers

variable {host : Host} {s : Server} {closing : List String} {r : Server × List Outgoing}

/-- Whoever leaves the workspace alone and publishes nothing keeps the view exact. -/
theorem keeps_of_quiet (hw : r.1.workspace = s.workspace) (hp : publications r.2 = []) :
    s.Keeps host [] r := by
  intro closed published h
  rw [hw, hp, List.append_nil, List.append_nil]
  exact h

/-- Only the workspace and what is published matter. -/
theorem Keeps.congr {s' : Server} {r' : Server × List Outgoing} (h : s.Keeps host closing r)
    (hs : s'.workspace = s.workspace) (hw : r'.1.workspace = r.1.workspace)
    (hp : publications r'.2 = publications r.2) : s'.Keeps host closing r' := by
  intro closed published hshown
  rw [hw, hp]
  exact h closed published (hs ▸ hshown)

theorem publications_request (host : Host) (s : Server) (q : Request) :
    publications (s.request host q).2.2 = (s.workspace.handle host q).published :=
  publications_publish _

/-- After a check of all documents the view is exact, also with another engine than before. -/
theorem keeps_revalidateAll (host : Host) (s' : Server)
    (hdocs : s'.workspace.documents = s.workspace.documents) :
    s.Keeps host [] ((s'.request host .revalidateAll).1, (s'.request host .revalidateAll).2.2) := by
  intro closed published h
  rw [publications_request, List.append_nil]
  exact h.revalidateAll hdocs

/-- Settings are adopted only together with a check of all documents. -/
theorem keeps_adoptSettings (host : Host) (s : Server) (settings : Json) :
    s.Keeps host [] (s.adoptSettings host settings) := by
  unfold adoptSettings
  split
  · exact keeps_of_quiet rfl rfl
  · exact keeps_of_quiet rfl rfl
  · rename_i config _
    split
    · exact keeps_of_quiet rfl rfl
    · rename_i w hconfigure
      have hdocs : w.documents = s.workspace.documents := by
        have := Workspace.documents_configure config s.workspace
        rwa [hconfigure] at this
      exact (keeps_revalidateAll host { s with workspace := w } hdocs).congr rfl rfl rfl

theorem keeps_pullSettings (host : Host) (s : Server) (reply : Option ClientReply) :
    s.Keeps host [] (s.pullSettings host reply) := by
  unfold pullSettings
  split
  · exact keeps_of_quiet rfl rfl
  · exact (keeps_adoptSettings host s _).congr rfl rfl rfl

theorem keeps_changeSettings (host : Host) (s : Server) (replies : List ClientReply)
    (settings : Json) : s.Keeps host [] (s.changeSettings host replies settings) := by
  unfold changeSettings
  split
  · exact keeps_adoptSettings host s settings
  · split
    · exact keeps_pullSettings host s replies.head?
    · exact keeps_of_quiet rfl rfl

theorem keeps_greet (host : Host) (s : Server) (g : Greeting) :
    s.Keeps host [] ((s.greet host g).1, (s.greet host g).2.2) := by
  unfold greet
  cases g.options with
  | none => exact keeps_of_quiet rfl rfl
  | some options =>
    exact (keeps_adoptSettings host { s with client := g.client } options).congr rfl rfl rfl

theorem keeps_ready (host : Host) (s : Server) (replies : List ClientReply) :
    s.Keeps host [] (s.ready host replies) := by
  unfold ready
  split
  rename_i registration replies' hreg
  have hreg : publications registration = [] := by
    split at hreg <;> cases hreg <;> rfl
  have hpull : s.Keeps host []
      (if s.client.configuration then s.pullSettings host replies'.head? else (s, [])) := by
    split
    · exact keeps_pullSettings host s replies'.head?
    · exact keeps_of_quiet rfl rfl
  refine hpull.congr rfl rfl ?_
  rw [publications_concat_of_other rfl, publications_append, hreg, List.nil_append]

theorem keeps_documentOpened (host : Host) (s : Server) (d : Document) :
    s.Keeps host [] (s.documentOpened host d) := by
  intro closed published h
  rw [documentOpened, publications_request, List.append_nil]
  exact h.openDocument d

/-- A change that is refused is reported, and nothing is published. -/
theorem keeps_documentChanged (host : Host) (s : Server) (b : Batch) :
    s.Keeps host [] (s.documentChanged host b) := by
  have hrequest : s.Keeps host [] ((s.request host (.changeDocument b.uri b.version b.edits)).1,
      (s.request host (.changeDocument b.uri b.version b.edits)).2.2) := by
    intro closed published h
    rw [publications_request, List.append_nil]
    exact h.changeDocument b.uri b.version b.edits
  unfold documentChanged
  split
  · rename_i heq
    rw [heq] at hrequest
    exact hrequest.congr rfl rfl (publications_concat_of_other rfl _)
  · rename_i heq
    rw [heq] at hrequest
    exact hrequest

theorem keeps_documentClosed (host : Host) (s : Server) (uri : String) :
    s.Keeps host [uri] (s.documentClosed host uri) := by
  intro closed published h
  rw [documentClosed, publications_request]
  exact h.closeDocument uri

theorem keeps_execute (host : Host) (s : Server) (command : String) :
    s.Keeps host [] ((s.execute host command).1, (s.execute host command).2.2) := by
  unfold execute
  split
  · exact keeps_of_quiet rfl rfl
  · split
    · exact (keeps_revalidateAll host s rfl).congr rfl rfl (publications_concat_of_other rfl _)
    · exact keeps_of_quiet rfl rfl

end Handlers

/-! ## 3. Errands -/

/-- What a client wants of the server, once its message has been read. -/
inductive Errand where
  | greet (g : Greeting)
  | ready (replies : List ClientReply)
  | openDocument (d : Document)
  | changeDocument (b : Batch)
  | closeDocument (uri : String)
  | changeSettings (replies : List ClientReply) (settings : Json)
  | execute (command : String)
  | hover (uri : String) (p : Position)
  | complete

/-- The URI that an errand closes, whether it is open or not. -/
def Errand.closing : Errand → List String
  | .closeDocument uri => [uri]
  | _ => []

/-- The server after an errand, and what it sends meanwhile. -/
def attend (host : Host) (s : Server) : Errand → Server × List Outgoing
  | .greet g => ((s.greet host g).1, (s.greet host g).2.2)
  | .ready replies => s.ready host replies
  | .openDocument d => s.documentOpened host d
  | .changeDocument b => s.documentChanged host b
  | .closeDocument uri => s.documentClosed host uri
  | .changeSettings replies settings => s.changeSettings host replies settings
  | .execute command => ((s.execute host command).1, (s.execute host command).2.2)
  | .hover _ _ => (s, [])
  | .complete => (s, [])

/-- **Every errand keeps the view exact**, whatever came before it. -/
theorem keeps_attend (host : Host) (s : Server) (e : Errand) :
    s.Keeps host e.closing (s.attend host e) := by
  cases e with
  | greet g => exact keeps_greet host s g
  | ready replies => exact keeps_ready host s replies
  | openDocument d => exact keeps_documentOpened host s d
  | changeDocument b => exact keeps_documentChanged host s b
  | closeDocument uri => exact keeps_documentClosed host s uri
  | changeSettings replies settings => exact keeps_changeSettings host s replies settings
  | execute command => exact keeps_execute host s command
  | hover | complete => exact keeps_of_quiet rfl rfl

end Server

/-- What happened so far: the server as it is, and all that was sent. -/
structure Transcript where
  server : Server
  sent : List Outgoing

namespace Transcript

/-- Before the first message. -/
def start (host : Host) : Transcript := ⟨.start host, []⟩

/-- One more errand, from beginning to end. -/
def attend (host : Host) (t : Transcript) (e : Server.Errand) : Transcript :=
  let (server, sent) := t.server.attend host e
  ⟨server, t.sent ++ sent⟩

end Transcript

end Nsql
