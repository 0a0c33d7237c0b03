/-
  File:      Nsql/Proofs/Workspace/Isolation.lean
  Subject:   Documents do not interfere with each other.

  Requests for all documents share one workspace. For one URI the workspace might as well hold
  nothing but the document of this URI (`Workspace.only`): a request that is for it leads to the
  same there, and a request for another URI leads nowhere. A check of all documents goes through
  them in an order that nothing is said about, and may take another one each time (`Replied`).

  * `handle_only` -- a request for a URI sees nothing of the other documents;
  * `only_handle_of_other`, `published_of_other` -- a request for another URI is not noticed;
  * `published_of_passes` -- in whatever order all documents are checked, the URI comes up once;
  * `Served.alike` -- so a run may leave out what is for other URIs;
  * **`documents_do_not_interfere`** -- and may deal with it at another time.
-/
import Mathlib.Data.List.Perm.Basic
import Nsql.Proofs.Workspace.View

namespace Nsql

/-! ## 1. The store with one document -/

namespace Store

/-- The part of a store that is about a URI. -/
def only (uri : String) (s : Store) : Store := (s.get? uri).toList

theorem get?_only (uri : String) (s : Store) : (s.only uri).get? uri = s.get? uri := by
  unfold only
  cases h : s.get? uri with
  | none => rfl
  | some d => simp [get?, uri_of_get? h]

theorem only_only (uri : String) (s : Store) : (s.only uri).only uri = s.only uri := by
  rw [only, get?_only, only]

theorem only_of_get? {uri : String} {s : Store} {d : Document} (h : s.get? uri = some d) :
    s.only uri = [d] := by
  rw [only, h, Option.toList_some]

/-- A document that is put in is all there is about its URI. -/
theorem insert_only (d : Document) (s : Store) :
    (s.only d.uri).insert d = (s.insert d).only d.uri := by
  rw [only_of_get? (get?_insert_self d s), only]
  cases h : s.get? d.uri with
  | none => rfl
  | some e => simp [insert, uri_of_get? h]

theorem only_insert_of_ne {uri : String} {d : Document} (s : Store) (h : d.uri ≠ uri) :
    (s.insert d).only uri = s.only uri := by
  rw [only, get?_insert_of_ne d s h, only]

theorem erase_only (uri : String) (s : Store) :
    (s.only uri).erase uri = (s.erase uri).only uri := by
  have hnone : (s.erase uri).only uri = [] := by rw [only, get?_erase_self, Option.toList_none]
  rw [hnone, only]
  cases h : s.get? uri with
  | none => rfl
  | some d => simp [erase, uri_of_get? h]

theorem only_erase_of_ne {uri other : String} (s : Store) (h : other ≠ uri) :
    (s.erase other).only uri = s.only uri := by
  rw [only, get?_erase_of_ne s h, only]

theorem has_only (uri : String) (s : Store) : (s.only uri).has uri = s.has uri := by
  rw [has, get?_only, has]

/-- **A change sees the document that it is for**, and nothing else: it is refused for the same
    reason, or gives the same document. -/
theorem update_only (uri : String) (version : Int) (edits : List Document.Edit) (s : Store) :
    (s.only uri).update uri version edits = (s.update uri version edits).map (only uri) := by
  unfold update
  rw [get?_only]
  cases hget : s.get? uri with
  | none => rfl
  | some d =>
    cases hchange : d.change version edits with
    | error e => simp only [hchange, Except.map]
    | ok d' =>
      have huri : d'.uri = uri := (Document.uri_of_change hchange).trans (uri_of_get? hget)
      subst huri
      simp only [hchange, Except.map, insert_only]

/-- A change for another URI is not noticed. -/
theorem only_update_of_ne {uri other : String} {version : Int} {edits : List Document.Edit}
    {s s' : Store} (h : s.update other version edits = .ok s') (hne : other ≠ uri) :
    s'.only uri = s.only uri := by
  obtain ⟨_, d', -, huri, -, rfl⟩ := update_eq_ok h
  exact only_insert_of_ne s (huri ▸ hne)

theorem nodup_only (uri : String) (s : Store) : (s.only uri).uris.Nodup := by
  unfold only
  cases s.get? uri with
  | none => exact List.nodup_nil
  | some d => exact List.nodup_singleton d.uri

end Store

/-! ## 2. Requests and the URI that they are for -/

namespace Request

/-- The URI that a request is for; none if it is for all documents. -/
def uri? : Request → Option String
  | .openDocument d => some d.uri
  | .changeDocument uri _ _ => some uri
  | .closeDocument uri => some uri
  | .validate uri => some uri
  | .revalidateAll => none
  | .configure _ => none

/-- Whether a request is for a URI, or for all documents. -/
def concerns (uri : String) (r : Request) : Bool := r.uri?.all (· == uri)

theorem concerns_of_none {uri : String} {r : Request} (h : r.uri? = none) :
    r.concerns uri = true := by
  rw [concerns, h, Option.all_none]

theorem concerns_iff_of_some {uri other : String} {r : Request} (h : r.uri? = some other) :
    r.concerns uri = true ↔ other = uri := by
  rw [concerns, h, Option.all_some, beq_iff_eq]

/-- A request that is not for a URI is for another one. -/
theorem exists_other_of_concerns {uri : String} {r : Request} (h : r.concerns uri = false) :
    ∃ other, r.uri? = some other ∧ other ≠ uri := by
  cases hr : r.uri? with
  | none => rw [concerns_of_none hr] at h; cases h
  | some other =>
    refine ⟨other, rfl, fun heq => ?_⟩
    rw [(concerns_iff_of_some hr).mpr heq] at h
    cases h

end Request

/-- The publications for a URI, in order. -/
def publishedFor (uri : String) (ps : List Publication) : List Publication :=
  ps.filter fun p => p.uri == uri

theorem publishedFor_append (uri : String) (ps qs : List Publication) :
    publishedFor uri (ps ++ qs) = publishedFor uri ps ++ publishedFor uri qs :=
  List.filter_append ..

/-! ## 3. The workspace with one document -/

namespace Workspace

/-- The workspace as far as a URI is concerned. -/
def only (uri : String) (w : Workspace) : Workspace :=
  { w with documents := w.documents.only uri }

/-- A reply with the workspace as far as a URI is concerned. -/
def Reply.only (uri : String) (reply : Reply) : Reply :=
  { reply with workspace := reply.workspace.only uri }

section Only

variable {uri : String} {r : Request}

theorem document?_only (uri : String) (w : Workspace) :
    (w.only uri).document? uri = w.document? uri :=
  Store.get?_only uri w.documents

theorem recheck_only (host : Host) (w : Workspace) (uri : String) :
    (w.only uri).recheck host uri = (w.recheck host uri).only uri := by
  unfold recheck
  rw [document?_only]
  cases w.document? uri <;> rfl

theorem configure_only (config : Config) (w : Workspace) (uri : String) :
    (w.only uri).configure config =
      ((w.configure config).1.only uri, (w.configure config).2) := by
  have hconfig : (w.only uri).config = w.config := rfl
  unfold configure
  rw [hconfig]
  split <;> rfl

/-- **A request for a URI sees nothing of the other documents**: it leads to the same outcome and
    the same publications if they are not there. -/
theorem handle_only (host : Host) (w : Workspace) (h : r.uri? = some uri) :
    (w.only uri).handle host r = (w.handle host r).only uri := by
  cases r with
  | openDocument d =>
    cases h
    have hinsert : { w.only d.uri with documents := (w.only d.uri).documents.insert d } =
        only d.uri { w with documents := w.documents.insert d } := by
      simp only [only, Store.insert_only]
    rw [handle, handle, hinsert, recheck_only]
  | changeDocument u version edits =>
    cases h
    have hupdate := Store.update_only uri version edits w.documents
    simp only [handle]
    rw [show (w.only uri).documents = w.documents.only uri from rfl, hupdate]
    cases w.documents.update uri version edits with
    | error e => rfl
    | ok documents => exact recheck_only host { w with documents := documents } uri
  | closeDocument u =>
    cases h
    have herase := Store.erase_only uri w.documents
    have hhas := Store.has_only uri w.documents
    simp only [handle, only, Reply.only, herase, hhas]
  | validate u =>
    cases h
    exact recheck_only host w uri
  | revalidateAll | configure => cases h

/-- A new configuration has nothing to do with documents. -/
theorem handle_configure_only (host : Host) (w : Workspace) (config : Config) (uri : String) :
    (w.only uri).handle host (.configure config) =
      (w.handle host (.configure config)).only uri := by
  simp only [handle, configure_only, Reply.only]

/-- The publication of a pass is for the URI that the pass was made over. -/
theorem uri_of_published_recheck {host : Host} {w : Workspace} {p : Publication}
    (h : p ∈ (w.recheck host uri).published) : p.uri = uri := by
  unfold recheck at h
  cases hd : w.document? uri with
  | none =>
    rw [hd] at h
    cases h
  | some d =>
    rw [hd] at h
    rw [List.mem_singleton.mp h]
    exact Store.uri_of_get? hd

/-- What is published upon a request for a URI is for this URI. -/
theorem uri_of_published {host : Host} {w : Workspace} {p : Publication} (hr : r.uri? = some uri)
    (h : p ∈ (w.handle host r).published) : p.uri = uri := by
  cases r with
  | openDocument d =>
    cases hr
    exact uri_of_published_recheck h
  | changeDocument u version edits =>
    cases hr
    rw [handle] at h
    split at h
    · exact uri_of_published_recheck h
    · cases h
  | closeDocument u =>
    cases hr
    rw [List.mem_singleton.mp h]
    rfl
  | validate u =>
    cases hr
    exact uri_of_published_recheck h
  | revalidateAll | configure => cases hr

/-- **A request for another URI is not noticed**: it changes nothing, -/
theorem only_handle_of_other (host : Host) (w : Workspace) {other : String}
    (hr : r.uri? = some other) (hne : other ≠ uri) :
    (w.handle host r).workspace.only uri = w.only uri := by
  cases r with
  | openDocument d =>
    cases hr
    rw [handle, workspace_recheck, only, only, Store.only_insert_of_ne w.documents hne]
  | changeDocument u version edits =>
    cases hr
    rw [handle]
    split
    · rename_i documents hup
      rw [workspace_recheck, only, only, Store.only_update_of_ne hup hne]
    · rfl
  | closeDocument u =>
    cases hr
    rw [handle, only, only, Store.only_erase_of_ne w.documents hne]
  | validate u =>
    cases hr
    rw [handle, workspace_recheck]
  | revalidateAll | configure => cases hr

/-- and publishes nothing. -/
theorem published_of_other (host : Host) (w : Workspace) {other : String}
    (hr : r.uri? = some other) (hne : other ≠ uri) :
    publishedFor uri (w.handle host r).published = [] := by
  refine List.filter_eq_nil_iff.mpr fun p hp => ?_
  rw [uri_of_published hr hp, beq_iff_eq]
  exact hne

/-- A request leaves one document for each URI. -/
theorem nodup_handle (host : Host) {w : Workspace} (h : w.documents.uris.Nodup) (r : Request) :
    (w.handle host r).workspace.documents.uris.Nodup := by
  cases r with
  | openDocument d =>
    rw [handle, workspace_recheck]
    exact Store.nodup_insert d h
  | changeDocument uri version edits =>
    rw [handle]
    split
    · rename_i documents hup
      obtain ⟨_, d, -, -, -, rfl⟩ := Store.update_eq_ok hup
      rw [workspace_recheck]
      exact Store.nodup_insert d h
    · exact h
  | closeDocument uri => exact Store.nodup_erase uri h
  | validate uri =>
    rw [handle, workspace_recheck]
    exact h
  | revalidateAll => exact h
  | configure config =>
    have hdocs : (w.handle host (.configure config)).workspace.documents = w.documents :=
      documents_configure config w
    rw [hdocs]
    exact h

/-- Passes over documents with distinct URIs publish for a URI what a pass over it does. -/
theorem publishedFor_map_pass (host : Host) (w : Workspace) (uri : String) {ds : Store}
    (h : ds.uris.Nodup) :
    publishedFor uri (ds.map (w.pass host)) = (ds.only uri).map (w.pass host) := by
  induction ds with
  | nil => rfl
  | cons d ds ih =>
    obtain ⟨hnot, hds⟩ := List.nodup_cons.mp h
    have hpass : (w.pass host d).uri = d.uri := rfl
    have hrest := ih hds
    rw [publishedFor] at hrest
    rw [publishedFor, List.map_cons, List.filter_cons, hpass, hrest, Store.only, Store.only,
      Store.get?]
    by_cases hu : d.uri = uri
    · subst hu
      simp [Store.get?_eq_none_iff.mpr hnot]
    · simp [hu]

/-- **In whatever order all documents are checked**, a URI comes up once. -/
theorem published_of_passes (host : Host) {w : Workspace} (h : w.documents.uris.Nodup)
    {ds : List Document} (hds : ds.Perm w.documents) (uri : String) :
    publishedFor uri (ds.map (w.pass host)) = (w.documents.only uri).map (w.pass host) := by
  have hperm : (publishedFor uri (ds.map (w.pass host))).Perm
      ((w.documents.only uri).map (w.pass host)) := by
    rw [← publishedFor_map_pass host w uri h]
    exact (hds.map _).filter _
  unfold Store.only at hperm ⊢
  cases hget : w.documents.get? uri with
  | none =>
    rw [hget] at hperm
    exact List.perm_nil.mp hperm
  | some d =>
    rw [hget] at hperm
    exact List.perm_singleton.mp hperm

end Only

/-! ## 4. Runs -/

/-- **A reply to a request.** A check of all documents may take them in any order. -/
inductive Replied (host : Host) (w : Workspace) : Request → Reply → Prop where
  | handled (r : Request) : Replied host w r (w.handle host r)
  | inOrder (ds : List Document) (h : ds.Perm w.documents) :
      Replied host w .revalidateAll (w.replyWith host ds (.revalidated ds.length))

/-- Requests and the replies to them. -/
abbrev Log := List (Request × Reply)

/-- Requests that are dealt with one after the other, from a workspace on. -/
inductive Served (host : Host) : Workspace → Log → Prop where
  | nil (w : Workspace) : Served host w []
  | cons {w : Workspace} {r : Request} {reply : Reply} {log : Log} (h : Replied host w r reply)
      (hlog : Served host reply.workspace log) : Served host w ((r, reply) :: log)

namespace Log

/-- The requests of a run. -/
def requests (log : Log) : List Request := log.map Prod.fst

/-- The workspace after a run from `w` on. -/
def final (w : Workspace) : Log → Workspace
  | [] => w
  | (_, reply) :: log => final reply.workspace log

/-- The outcomes of the requests for a URI. -/
def outcomesFor (uri : String) (log : Log) : List Outcome :=
  (log.filter fun entry => entry.1.uri? == some uri).map fun entry => entry.2.outcome

/-- What was published in a run, in order. -/
def published (log : Log) : List Publication := log.flatMap fun entry => entry.2.published

/-- **Two runs are the same for a URI**: they leave the same document, the requests for it came to
    the same, and the same was published for it. -/
structure SameFor (uri : String) (w : Workspace) (log : Log) (w' : Workspace) (log' : Log) :
    Prop where
  document : (log.final w).document? uri = (log'.final w').document? uri
  outcomes : log.outcomesFor uri = log'.outcomesFor uri
  published : publishedFor uri log.published = publishedFor uri log'.published

section SameFor

variable {uri : String} {w w' w'' : Workspace} {log log' log'' : Log} {r : Request}
  {reply reply' : Reply}

theorem outcomesFor_cons (h : r.uri? = some uri) :
    outcomesFor uri ((r, reply) :: log) = reply.outcome :: outcomesFor uri log := by
  simp [outcomesFor, h]

theorem outcomesFor_cons_of_ne (h : r.uri? ≠ some uri) :
    outcomesFor uri ((r, reply) :: log) = outcomesFor uri log := by
  simp [outcomesFor, h]

theorem publishedFor_cons :
    publishedFor uri (published ((r, reply) :: log)) =
      publishedFor uri reply.published ++ publishedFor uri log.published :=
  publishedFor_append uri reply.published log.published

theorem SameFor.symm (h : SameFor uri w log w' log') : SameFor uri w' log' w log :=
  ⟨h.document.symm, h.outcomes.symm, h.published.symm⟩

theorem SameFor.trans (h : SameFor uri w log w' log') (h' : SameFor uri w' log' w'' log'') :
    SameFor uri w log w'' log'' :=
  ⟨h.document.trans h'.document, h.outcomes.trans h'.outcomes, h.published.trans h'.published⟩

/-- One more request in front of both runs. -/
theorem SameFor.cons (houtcome : r.uri? = some uri → reply.outcome = reply'.outcome)
    (hpublished : publishedFor uri reply.published = publishedFor uri reply'.published)
    (h : SameFor uri reply.workspace log reply'.workspace log') :
    SameFor uri w ((r, reply) :: log) w' ((r, reply') :: log') := by
  refine ⟨h.document, ?_, ?_⟩
  · by_cases hu : r.uri? = some uri
    · rw [outcomesFor_cons hu, outcomesFor_cons hu, houtcome hu, h.outcomes]
    · rw [outcomesFor_cons_of_ne hu, outcomesFor_cons_of_ne hu, h.outcomes]
  · rw [publishedFor_cons, publishedFor_cons, hpublished, h.published]

/-- One more request for another URI in front of the first run. -/
theorem SameFor.cons_other (hr : r.concerns uri = false)
    (hpublished : publishedFor uri reply.published = [])
    (h : SameFor uri reply.workspace log w' log') :
    SameFor uri w ((r, reply) :: log) w' log' := by
  have hu : r.uri? ≠ some uri := by
    obtain ⟨other, hother, hne⟩ := Request.exists_other_of_concerns hr
    rw [hother]
    exact fun heq => hne (Option.some.inj heq)
  refine ⟨h.document, ?_, ?_⟩
  · rw [outcomesFor_cons_of_ne hu, h.outcomes]
  · rw [publishedFor_cons, hpublished, List.nil_append, h.published]

end SameFor

end Log

section Runs

variable {host : Host} {uri : String} {w w' : Workspace} {r : Request} {reply reply' : Reply}

theorem Replied.workspace_eq (h : Replied host w r reply) :
    reply.workspace = (w.handle host r).workspace := by
  cases h <;> rfl

/-- **What a reply shows to a URI** is what it would show without the other documents. -/
theorem Replied.only (h : Replied host w r reply) (hw : w.documents.uris.Nodup)
    (hr : r.concerns uri = true) :
    reply.workspace.only uri = ((w.only uri).handle host r).workspace ∧
    (r.uri? = some uri → reply.outcome = ((w.only uri).handle host r).outcome) ∧
    publishedFor uri reply.published =
      publishedFor uri ((w.only uri).handle host r).published := by
  have hall : ∀ ds : List Document, ds.Perm w.documents →
      publishedFor uri (ds.map (w.pass host)) =
        publishedFor uri ((w.only uri).handle host .revalidateAll).published := by
    intro ds hds
    have hone := publishedFor_map_pass host (w.only uri) uri (Store.nodup_only uri w.documents)
    rw [Store.only_only] at hone
    exact (published_of_passes host hw hds uri).trans hone.symm
  cases h with
  | inOrder ds hds => exact ⟨rfl, fun hu => (by cases hu), hall ds hds⟩
  | handled =>
    cases hu : r.uri? with
    | some other =>
      have hother := (Request.concerns_iff_of_some hu).mp hr
      rw [handle_only host w (hother ▸ hu)]
      exact ⟨rfl, fun _ => rfl, rfl⟩
    | none =>
      cases r with
      | revalidateAll => exact ⟨rfl, fun hu => (by cases hu), hall w.documents (.refl _)⟩
      | configure config =>
        rw [handle_configure_only]
        exact ⟨rfl, fun _ => rfl, rfl⟩
      | openDocument | changeDocument | closeDocument | validate => cases hu

/-- One request in two workspaces that are the same for a URI. -/
theorem Replied.alike (h : Replied host w r reply) (h' : Replied host w' r reply')
    (hsame : w.only uri = w'.only uri) (hw : w.documents.uris.Nodup)
    (hw' : w'.documents.uris.Nodup) (hr : r.concerns uri = true) :
    reply.workspace.only uri = reply'.workspace.only uri ∧
    (r.uri? = some uri → reply.outcome = reply'.outcome) ∧
    publishedFor uri reply.published = publishedFor uri reply'.published := by
  obtain ⟨hnext, houtcome, hpublished⟩ := h.only hw hr
  obtain ⟨hnext', houtcome', hpublished'⟩ := h'.only hw' hr
  rw [← hsame] at hnext' houtcome' hpublished'
  exact ⟨hnext.trans hnext'.symm, fun hu => (houtcome hu).trans (houtcome' hu).symm,
    hpublished.trans hpublished'.symm⟩

/-- One request that is for another URI. -/
theorem Replied.other (h : Replied host w r reply) (hr : r.concerns uri = false) :
    reply.workspace.only uri = w.only uri ∧ publishedFor uri reply.published = [] := by
  obtain ⟨other, hu, hne⟩ := Request.exists_other_of_concerns hr
  cases h with
  | inOrder => cases hu
  | handled => exact ⟨only_handle_of_other host w hu hne, published_of_other host w hu hne⟩

theorem Replied.nodup (h : Replied host w r reply) (hw : w.documents.uris.Nodup) :
    reply.workspace.documents.uris.Nodup := by
  rw [h.workspace_eq]
  exact nodup_handle host hw r

/-- Any requests can be dealt with. -/
theorem exists_served (host : Host) (rs : List Request) :
    ∀ w, ∃ log, Served host w log ∧ log.requests = rs := by
  induction rs with
  | nil => exact fun w => ⟨[], .nil w, rfl⟩
  | cons r rs ih =>
    intro w
    obtain ⟨log, hlog, hrs⟩ := ih (w.handle host r).workspace
    exact ⟨(r, w.handle host r) :: log, .cons (.handled r) hlog, congrArg (r :: ·) hrs⟩

theorem Served.take {log : Log} (h : Served host w log) (n : Nat) : Served host w (log.take n) := by
  induction h generalizing n with
  | nil w =>
    rw [List.take_nil]
    exact .nil w
  | cons h _ ih =>
    cases n with
    | zero => exact .nil _
    | succ n => exact .cons h (ih n)

/-- **A run may leave out what is for other URIs**: it stays the same for this one. -/
theorem Served.alike {log : Log} (h : Served host w log) :
    ∀ {w' : Workspace} {log' : Log}, Served host w' log' → w.only uri = w'.only uri →
      w.documents.uris.Nodup → w'.documents.uris.Nodup →
      log'.requests = log.requests.filter (Request.concerns uri) →
      Log.SameFor uri w log w' log' := by
  induction h with
  | nil w =>
    intro w' log' _ hsame _ _ hrequests
    have hnil : log' = [] := List.map_eq_nil_iff.mp hrequests
    subst hnil
    refine ⟨?_, rfl, rfl⟩
    show w.document? uri = w'.document? uri
    rw [← document?_only, hsame, document?_only]
  | @cons w r reply log h _ ih =>
    intro w' log' h' hsame hw hw' hrequests
    have hcons : Log.requests ((r, reply) :: log) = r :: log.requests := rfl
    rw [hcons, List.filter_cons] at hrequests
    cases hr : r.concerns uri with
    | false =>
      rw [hr, if_neg Bool.false_ne_true] at hrequests
      obtain ⟨hnext, hpublished⟩ := h.other hr
      exact .cons_other hr hpublished
        (ih h' (hnext.trans hsame) (h.nodup hw) hw' hrequests)
    | true =>
      rw [hr, if_pos rfl] at hrequests
      cases h' with
      | nil => cases hrequests
      | cons h' hlog' =>
        obtain ⟨rfl, hrest⟩ := List.cons.inj hrequests
        obtain ⟨hnext, houtcome, hpublished⟩ := h.alike h' hsame hw hw' hr
        exact .cons houtcome hpublished (ih hlog' hnext (h.nodup hw) (h'.nodup hw') hrest)

/-- Two runs from the same workspace with the same requests for a URI and for all documents are
    the same for this URI, whatever else there is in between. -/
theorem Served.same {log log' : Log} (h : Served host w log) (h' : Served host w log')
    (hw : w.documents.uris.Nodup)
    (hrequests : log.requests.filter (Request.concerns uri) =
      log'.requests.filter (Request.concerns uri)) : Log.SameFor uri w log w log' := by
  obtain ⟨kept, hkept, heq⟩ := exists_served host (log.requests.filter (Request.concerns uri)) w
  exact (h.alike hkept rfl hw hw heq).trans
    (h'.alike hkept rfl hw hw (heq.trans hrequests)).symm

end Runs

/-! ## 5. Isolation -/

/-- The requests that are kept of the first ones are the first ones of those that are kept. -/
theorem filter_take_eq {p : Request → Bool} (rs : List Request) (n : Nat) :
    (rs.filter p).take ((rs.take n).countP p) = (rs.take n).filter p := by
  have hsplit : rs.filter p = (rs.take n).filter p ++ (rs.drop n).filter p := by
    rw [← List.filter_append, List.take_append_drop]
  rw [hsplit, List.countP_eq_length_filter, List.take_left]

/-- Two requests for different URIs are not both for the same one. -/
theorem filter_concerns_swap {r r' : Request} (hr : r.uri?.isSome) (hr' : r'.uri?.isSome)
    (hne : r.uri? ≠ r'.uri?) (uri : String) (before after : List Request) :
    (before ++ r :: r' :: after).filter (Request.concerns uri) =
      (before ++ r' :: r :: after).filter (Request.concerns uri) := by
  obtain ⟨u, hu⟩ := Option.isSome_iff_exists.mp hr
  obtain ⟨u', hu'⟩ := Option.isSome_iff_exists.mp hr'
  rw [List.filter_append, List.filter_append]
  congr 1
  by_cases hc : r.concerns uri = true
  · have hc' : ¬ r'.concerns uri = true := by
      rw [Request.concerns_iff_of_some hu']
      rw [Request.concerns_iff_of_some hu] at hc
      rintro rfl
      exact hne (hu.trans (hc ▸ hu'.symm))
    rw [List.filter_cons_of_pos hc, List.filter_cons_of_neg hc', List.filter_cons_of_neg hc',
      List.filter_cons_of_pos hc]
  · by_cases hc' : r'.concerns uri = true
    · rw [List.filter_cons_of_neg hc, List.filter_cons_of_pos hc', List.filter_cons_of_pos hc',
        List.filter_cons_of_neg hc]
    · rw [List.filter_cons_of_neg hc, List.filter_cons_of_neg hc', List.filter_cons_of_neg hc',
        List.filter_cons_of_neg hc]

/-- **Documents do not interfere.** Let requests be dealt with one after the other, with any
    configuration and engine to begin with. A run in which the requests for other URIs are left
    out exists, and for a URI it is the same: after every request its document is the same as
    after those of them that are kept, the requests for it came to the same, and the same was
    published for it. So two requests for different URIs may change places, and nothing changes
    for any URI. -/
theorem documents_do_not_interfere (host : Host) (config : Config) (engine : Engine)
    (followsConfig : Bool) (uri : String) :
    let start : Workspace := ⟨[], config, engine, followsConfig⟩
    (∀ log, Served host start log →
      (∃ kept, Served host start kept ∧
        kept.requests = log.requests.filter (Request.concerns uri)) ∧
      ∀ kept, Served host start kept →
        kept.requests = log.requests.filter (Request.concerns uri) →
        ∀ n, Log.SameFor uri start (log.take n) start
          (kept.take ((log.requests.take n).countP (Request.concerns uri)))) ∧
    (∀ (before after : List Request) (r r' : Request) (log log' : Log), r.uri?.isSome →
      r'.uri?.isSome → r.uri? ≠ r'.uri? → Served host start log → Served host start log' →
      log.requests = before ++ r :: r' :: after → log'.requests = before ++ r' :: r :: after →
      Log.SameFor uri start log start log') := by
  intro start
  have hstart : start.documents.uris.Nodup := List.nodup_nil
  refine ⟨fun log hlog => ⟨exists_served host _ start, fun kept hkept hrequests n => ?_⟩,
    fun before after r r' log log' hr hr' hne hlog hlog' hrequests hrequests' => ?_⟩
  · refine (hlog.take n).alike (hkept.take _) rfl hstart hstart ?_
    have htake : Log.requests (kept.take ((log.requests.take n).countP (Request.concerns uri))) =
        kept.requests.take ((log.requests.take n).countP (Request.concerns uri)) :=
      List.map_take ..
    have htake' : Log.requests (log.take n) = log.requests.take n := List.map_take ..
    rw [htake, htake', hrequests, filter_take_eq]
  · refine hlog.same hlog' hstart ?_
    rw [hrequests, hrequests', filter_concerns_swap hr hr' hne]

/-- Two documents are opened, all documents are checked beginning with the second one, and the
    second one is closed: for the first one this is as if it had been opened and checked alone. -/
theorem documents_do_not_interfere_in_any_order :
    let a := Document.ofText "a" "nsql" 1 ['A', 'S', 'K']
    let b := Document.ofText "b" "nsql" 1 []
    let host : Host := ⟨[], none, none, .ok⟩
    let both : Workspace := ⟨[a, b], .default, .ofConfig .default, true⟩
    let log : Log := [
      (.openDocument a, handle host ⟨[], .default, .ofConfig .default, true⟩ (.openDocument a)),
      (.openDocument b, handle host ⟨[a], .default, .ofConfig .default, true⟩ (.openDocument b)),
      (.revalidateAll, both.replyWith host [b, a] (.revalidated 2)),
      (.closeDocument "b", both.handle host (.closeDocument "b"))]
    Served host ⟨[], .default, .ofConfig .default, true⟩ log ∧
    log.requests.filter (Request.concerns "a") = [.openDocument a, .revalidateAll] ∧
    (log.final ⟨[], .default, .ofConfig .default, true⟩).document? "a" = some a ∧
    publishedFor "a" log.published =
      [⟨"a", [Scan.missingTerminator 0 3], some 1⟩,
        ⟨"a", [Scan.missingTerminator 0 3], some 1⟩] := by
  intro a b host both log
  have hlog : Served host ⟨[], .default, .ofConfig .default, true⟩ log :=
    .cons (.handled _) (.cons (.handled _) (.cons (.inOrder [b, a] (.swap a b []))
      (.cons (.handled _) (.nil _))))
  have hkept : Served host ⟨[], .default, .ofConfig .default, true⟩
      [(.openDocument a, handle host ⟨[], .default, .ofConfig .default, true⟩ (.openDocument a)),
        (.revalidateAll, handle host ⟨[a], .default, .ofConfig .default, true⟩ .revalidateAll)] :=
    .cons (.handled _) (.cons (.handled _) (.nil _))
  have hsame := ((documents_do_not_interfere host .default (.ofConfig .default) true "a").1 log
    hlog).2 _ hkept (by decide) 4
  exact ⟨hlog, by decide, hsame.document.trans (by decide),
    hsame.published.trans (by decide +kernel)⟩

end Workspace

end Nsql
