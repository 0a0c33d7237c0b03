/-
  File:      Nsql/Proofs/Workspace/View.lean
  Subject:   What the client shows when requests are dealt with one after the other.

  When every request is dealt with from beginning to end before the next one, the client shows of
  every open document the findings of the engine about it, and nothing of a document that was
  closed (`InView`). The parts of a request keep it that way, one lemma for each of
  them: a document that is put in is checked at once, one that is taken out is withdrawn, and a
  change of the engine is followed by a check of all documents.
-/
import Nsql.Proofs.Workspace.Turns

namespace Nsql

/-! ## 1. The documents of a store -/

namespace Store

/-- A URI is not open if no document has it. -/
theorem get?_eq_none_iff {uri : String} {s : Store} : get? uri s = none ↔ uri ∉ s.uris := by
  induction s with
  | nil => simp [uris]
  | cons d s ih =>
    by_cases h : d.uri = uri
    · simp [get?, uris, h]
    · have h' : uri ≠ d.uri := Ne.symm h
      simp only [get?, if_neg h, ih, uris, List.map_cons, List.mem_cons, h', false_or]

theorem mem_uris_insert {uri : String} {d : Document} {s : Store} (h : uri ∈ (insert d s).uris) :
    uri = d.uri ∨ uri ∈ s.uris := by
  by_contra hno
  obtain ⟨hne, hmem⟩ := not_or.mp hno
  rw [← get?_eq_none_iff] at hmem
  rw [← get?_insert_of_ne d s (Ne.symm hne), get?_eq_none_iff] at hmem
  exact hmem h

/-- A document that is put in leaves one document for each URI. -/
theorem nodup_insert (d : Document) {s : Store} (h : s.uris.Nodup) : (insert d s).uris.Nodup := by
  induction s with
  | nil => simp [insert, uris]
  | cons e s ih =>
    obtain ⟨hnot, hs⟩ := List.nodup_cons.mp h
    by_cases he : e.uri = d.uri
    · rw [insert, if_pos he]
      rw [he] at hnot
      exact List.nodup_cons.mpr ⟨hnot, hs⟩
    · rw [insert, if_neg he]
      refine List.nodup_cons.mpr ⟨fun hmem => ?_, ih hs⟩
      rcases mem_uris_insert hmem with hu | hu
      · exact he hu
      · exact hnot hu

theorem nodup_erase (uri : String) {s : Store} (h : s.uris.Nodup) : (erase uri s).uris.Nodup :=
  h.sublist ((erase_sublist uri s).map Document.uri)

end Store

/-! ## 2. The last publication for a URI -/

theorem shownFor?_append (uri : String) (ps qs : List Publication) :
    shownFor? uri (ps ++ qs) = (shownFor? uri qs).or (shownFor? uri ps) := by
  unfold shownFor?
  rw [List.filter_append, List.getLast?_append]

/-- Nothing is shown for a URI exactly if nothing was published for it. -/
theorem shownFor?_eq_none_iff {uri : String} {ps : List Publication} :
    shownFor? uri ps = none ↔ ∀ p ∈ ps, p.uri ≠ uri := by
  simp [shownFor?]

/-- **Passes over all documents** show for every open document its own pass. -/
theorem shownFor?_map_pass (host : Host) (w : Workspace) (uri : String) {ds : Store}
    (h : ds.uris.Nodup) :
    shownFor? uri (ds.map (w.pass host)) = (ds.get? uri).map (w.pass host) := by
  induction ds with
  | nil => rfl
  | cons d ds ih =>
    obtain ⟨hnot, hds⟩ := List.nodup_cons.mp h
    rw [List.map_cons, ← List.singleton_append, shownFor?_append, ih hds, Store.get?]
    by_cases hu : d.uri = uri
    · -- the URI comes up once, so nothing replaces this pass
      subst hu
      rw [Store.get?_eq_none_iff.mpr hnot, if_pos rfl]
      simp [shownFor?, Workspace.pass, Publication.ofDocument]
    · rw [if_neg hu]
      simp [shownFor?, Workspace.pass, Publication.ofDocument, hu]

/-! ## 3. The view of the client -/

/-- **The view of the client is exact**: it shows the findings of the engine about every document
    that is open, with its version; the empty list of a document that was closed and is not open;
    and of any other document nothing was ever published. -/
def InView (host : Host) (engine : Engine) (documents : String → Option Document)
    (closed : List String) (published : List Publication) : Prop :=
  ∀ uri,
    (∀ d, documents uri = some d →
      shownFor? uri published = some (.ofDocument d (engine.check host d.content))) ∧
    (documents uri = none → uri ∈ closed → shownFor? uri published = some (.clearing uri)) ∧
    (documents uri = none → uri ∉ closed → ∀ p ∈ published, p.uri ≠ uri)

namespace Workspace

/-- What the client should show for a URI. -/
def due? (host : Host) (closed : List String) (w : Workspace) (uri : String) :
    Option Publication :=
  match w.document? uri with
  | some d => some (w.pass host d)
  | none => if uri ∈ closed then some (.clearing uri) else none

/-- There is one document for each URI, and the client shows what it should. Without the first
    part, a check of all documents could leave the findings about a document that is not the one
    found under its URI. -/
structure Shown (host : Host) (closed : List String) (published : List Publication)
    (w : Workspace) : Prop where
  distinct : w.documents.uris.Nodup
  shows : ∀ uri, shownFor? uri published = w.due? host closed uri

namespace Shown

variable {host : Host} {closed : List String} {published : List Publication} {w : Workspace}

theorem inView (h : Shown host closed published w) :
    InView host w.engine w.document? closed published := by
  intro uri
  have hshows := h.shows uri
  refine ⟨fun d hd => ?_, fun hnone hmem => ?_, fun hnone hmem => ?_⟩
  · rw [hshows, due?, hd]
    rfl
  · rw [hshows, due?, hnone]
    exact if_pos hmem
  · rw [← shownFor?_eq_none_iff, hshows, due?, hnone]
    exact if_neg hmem

theorem ofConfig (host : Host) (config : Config) : Shown host [] [] (.ofConfig config) :=
  ⟨List.nodup_nil, fun _ => rfl⟩

/-- A document that is put in is checked at once. -/
theorem insert (h : Shown host closed published w) (d : Document) :
    Shown host closed (published ++ [w.pass host d])
      { w with documents := w.documents.insert d } := by
  refine ⟨Store.nodup_insert d h.distinct, fun uri => ?_⟩
  rw [shownFor?_concat, due?, document?]
  by_cases hu : d.uri = uri
  · subst hu
    rw [Store.get?_insert_self]
    exact if_pos rfl
  · rw [Store.get?_insert_of_ne d w.documents hu]
    exact (if_neg hu).trans (h.shows uri)

/-- The findings about a document that is taken out are withdrawn, also if it was not open. -/
theorem erase (h : Shown host closed published w) (uri : String) :
    Shown host (closed ++ [uri]) (published ++ [.clearing uri])
      { w with documents := w.documents.erase uri } := by
  refine ⟨Store.nodup_erase uri h.distinct, fun other => ?_⟩
  rw [shownFor?_concat, due?, document?]
  by_cases hu : uri = other
  · subst hu
    rw [Store.get?_erase_self]
    simp [Publication.clearing]
  · have hmem : other ∈ closed ++ [uri] ↔ other ∈ closed := by
      simp [Ne.symm hu]
    rw [Store.get?_erase_of_ne w.documents hu]
    simp only [hmem]
    exact (if_neg hu).trans (h.shows other)

/-- **After a check of all documents** the view is exact again, whatever the engine was before. -/
theorem passes (h : Shown host closed published w) {w' : Workspace}
    (hdocs : w'.documents = w.documents) :
    Shown host closed (published ++ w'.documents.map (w'.pass host)) w' := by
  refine ⟨hdocs ▸ h.distinct, fun uri => ?_⟩
  rw [shownFor?_append, shownFor?_map_pass host w' uri (hdocs ▸ h.distinct), h.shows uri,
    due?, due?, document?, document?, hdocs]
  cases w.documents.get? uri with
  | some d => rfl
  | none => rfl

end Shown

/-! ## 4. Requests -/

/-- A pass over an open document publishes the findings about it. -/
theorem published_recheck {host : Host} {w : Workspace} {uri : String} {d : Document}
    (h : w.document? uri = some d) : (w.recheck host uri).published = [w.pass host d] := by
  simp only [recheck, h, replyWith, List.map_cons, List.map_nil]

theorem documents_configure (config : Config) (w : Workspace) :
    (w.configure config).1.documents = w.documents := by
  unfold configure
  split <;> rfl

namespace Shown

variable {host : Host} {closed : List String} {published : List Publication} {w : Workspace}

/-- A document that is opened or changed is put in and then checked. -/
theorem recheck_insert (h : Shown host closed published w) (d : Document) :
    Shown host closed
      (published ++ (recheck host { w with documents := w.documents.insert d } d.uri).published)
      (recheck host { w with documents := w.documents.insert d } d.uri).workspace := by
  have hd : document? { w with documents := w.documents.insert d } d.uri = some d :=
    Store.get?_insert_self d w.documents
  rw [published_recheck hd, workspace_recheck]
  exact h.insert d

theorem openDocument (h : Shown host closed published w) (d : Document) :
    Shown host closed (published ++ (w.handle host (.openDocument d)).published)
      (w.handle host (.openDocument d)).workspace :=
  h.recheck_insert d

/-- A change that is refused publishes nothing. -/
theorem changeDocument (h : Shown host closed published w) (uri : String) (version : Int)
    (edits : List Document.Edit) :
    Shown host closed (published ++ (w.handle host (.changeDocument uri version edits)).published)
      (w.handle host (.changeDocument uri version edits)).workspace := by
  rw [handle]
  split
  · rename_i documents hup
    obtain ⟨_, d, -, rfl, -, rfl⟩ := Store.update_eq_ok hup
    exact h.recheck_insert d
  · rw [List.append_nil]
    exact h

theorem closeDocument (h : Shown host closed published w) (uri : String) :
    Shown host (closed ++ [uri]) (published ++ (w.handle host (.closeDocument uri)).published)
      (w.handle host (.closeDocument uri)).workspace :=
  h.erase uri

theorem revalidateAll (h : Shown host closed published w) {w' : Workspace}
    (hdocs : w'.documents = w.documents) :
    Shown host closed (published ++ (w'.handle host .revalidateAll).published)
      (w'.handle host .revalidateAll).workspace :=
  h.passes hdocs

end Shown

end Workspace

end Nsql
