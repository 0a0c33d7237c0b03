/-
  File:      Nsql/Proofs/Document/Agreement.lean
  Subject:   The text of a document and the text that the client has on its screen.

  A client changes its own text and tells the server about every change, as a text in place of a
  range or of everything (`Typed`). It sends its changes in batches, and each change is written
  down against the text that the change before it left (`TypedAll`, `Session`).

  * `apply_of_typed` -- the server makes of a change what the client made of it;
  * `document?_handle_change` -- what a batch does to the document that it is for;
  * `content_agrees_with_client` -- the two texts are the same after every batch of a session.
-/
import Nsql.Proofs.Document.Place
import Nsql.Workspace.Basic

namespace Nsql.Document

/-! ## 1. What a client does -/

/-- A change of a client: the text before, what is sent to the server, and the text after. A part
    that is replaced may begin and end anywhere but inside a line break. -/
inductive Typed : Text → Edit → Text → Prop where
  | whole (t new : Text) : Typed t ⟨none, new⟩ new
  | part (p m s new : Text) (hstart : ¬ Severs p (m ++ s)) (hstop : ¬ Severs (p ++ m) s) :
      Typed (p ++ m ++ s) ⟨some ⟨place p, place (p ++ m)⟩, new⟩ (p ++ new ++ s)

/-- The changes of a batch, one after the other. -/
inductive TypedAll : Text → List Edit → Text → Prop where
  | nil (t : Text) : TypedAll t [] t
  | cons {t t' t'' : Text} {e : Edit} {es : List Edit} (he : Typed t e t')
      (hes : TypedAll t' es t'') : TypedAll t (e :: es) t''

/-- The batches of a session with their versions, and the text of the client at the beginning and
    after every batch. -/
inductive Session : Text → List (Int × List Edit) → List Text → Prop where
  | done (t : Text) : Session t [] [t]
  | batch {t t' : Text} {es : List Edit} {bs : List (Int × List Edit)} {ts : List Text}
      (version : Int) (hes : TypedAll t es t') (hbs : Session t' bs ts) :
      Session t ((version, es) :: bs) (t :: ts)

/-! ## 2. What the server makes of it -/

/-- **A replaced part**: both ends of the range are found where the client cut its text. -/
theorem apply_part (p m s new : Text) (hstart : ¬ Severs p (m ++ s)) (hstop : ¬ Severs (p ++ m) s) :
    Edit.apply ⟨some ⟨place p, place (p ++ m)⟩, new⟩ (p ++ m ++ s) = .ok (p ++ new ++ s) := by
  have h1 : offset? (p ++ m ++ s) (place p) = some p.length := by
    rw [List.append_assoc]
    exact offset?_place p (m ++ s) hstart
  have h2 : offset? (p ++ m ++ s) (place (p ++ m)) = some (p ++ m).length :=
    offset?_place (p ++ m) s hstop
  have hle : p.length ≤ (p ++ m).length := by simp
  have htake : (p ++ m ++ s).take p.length = p := by rw [List.append_assoc, List.take_left]
  simp only [Edit.apply, h1, h2, if_pos hle, htake, List.drop_left]

/-- **The server makes of a change what the client made of it.** -/
theorem apply_of_typed {t t' : Text} {e : Edit} (h : Typed t e t') : e.apply t = .ok t' := by
  cases h with
  | whole => rfl
  | part p m s new hstart hstop => exact apply_part p m s new hstart hstop

theorem applyEdits_of_typedAll {t t' : Text} {es : List Edit} (h : TypedAll t es t') :
    applyEdits es t = .ok t' := by
  induction h with
  | nil t => rfl
  | cons he _ ih => simp only [applyEdits, apply_of_typed he, ih]

/-- A batch that can be applied gives a document with the new text. -/
theorem change_of_applyEdits {d : Document} {es : List Edit} {t : Text}
    (h : applyEdits es d.content = .ok t) (version : Int) :
    d.change version es =
      .ok { d with version := version, lineCount := (rows t).length, content := t } := by
  simp only [change, h]

end Nsql.Document

namespace Nsql.Workspace

open Document

/-! ## 3. The document that the server keeps -/

/-- The text that the server has for a URI. -/
def content? (w : Workspace) (uri : String) : Option Text := (w.document? uri).map Document.content

/-- The text that the server has for a URI, at the beginning and after every batch of edits. -/
def contents (host : Host) (uri : String) : Workspace → List (Int × List Edit) → List (Option Text)
  | w, [] => [w.content? uri]
  | w, (version, edits) :: batches =>
    w.content? uri ::
      contents host uri (w.handle host (.changeDocument uri version edits)).workspace batches

/-- A document is there as soon as it was opened. -/
theorem document?_handle_open (host : Host) (w : Workspace) (d : Document) :
    (w.handle host (.openDocument d)).workspace.document? d.uri = some d := by
  simp [handle, document?]

/-- **One batch**: the document has the new text and the version of the batch. -/
theorem document?_handle_change (host : Host) {w : Workspace} {uri : String} {d : Document}
    {es : List Edit} {t : Text} (version : Int) (hd : w.document? uri = some d)
    (ht : applyEdits es d.content = .ok t) :
    (w.handle host (.changeDocument uri version es)).workspace.document? uri =
      some { d with version := version, lineCount := (rows t).length, content := t } := by
  have huri : d.uri = uri := Store.uri_of_get? hd
  have hupdate : w.documents.update uri version es = .ok (w.documents.insert
      { d with version := version, lineCount := (rows t).length, content := t }) := by
    have hget : w.documents.get? uri = some d := hd
    simp only [Store.update, hget, change_of_applyEdits ht]
  subst huri
  simp only [handle, hupdate, workspace_recheck, document?]
  exact Store.get?_insert_self ⟨d.uri, d.language, version, (rows t).length, t⟩ w.documents

/-- **A session**: from a document with the text of the client on, the texts stay the same. -/
theorem contents_of_session (host : Host) {uri : String} {t : Text} {bs : List (Int × List Edit)}
    {ts : List Text} (h : Session t bs ts) : ∀ {w : Workspace} {d : Document},
    w.document? uri = some d → d.content = t → contents host uri w bs = ts.map some := by
  induction h with
  | done t =>
    intro w d hd ht
    simp [contents, content?, hd, ht]
  | batch version hes _ ih =>
    intro w d hd ht
    have hedits := applyEdits_of_typedAll hes
    rw [← ht] at hedits
    have hnext := document?_handle_change host version hd hedits
    rw [contents, ih hnext rfl, content?, hd, Option.map_some, ht, List.map_cons]

/-- **The document of the server is the text of the client.** A part of a text that is replaced
    can be named in 32 bits if the text is not longer, and the change is made where the client
    made it; a change without range replaces everything; and so in a session the server has the
    text of the client when the document is opened and after every batch. -/
theorem content_agrees_with_client (host : Host) :
    (∀ (d : Document) (version : Int) (p m s new : Text), d.content = p ++ m ++ s →
      ¬ Severs p (m ++ s) → ¬ Severs (p ++ m) s →
      (Text.width d.content < 4294967296 →
        ∀ q ∈ [place p, place (p ++ m)], q.line < 4294967296 ∧ q.column < 4294967296) ∧
      ∃ d', d.change version [⟨some ⟨place p, place (p ++ m)⟩, new⟩] = .ok d' ∧
        d'.content = p ++ new ++ s ∧ d'.version = version) ∧
    (∀ (d : Document) (version : Int) (new : Text),
      ∃ d', d.change version [⟨none, new⟩] = .ok d' ∧ d'.content = new ∧ d'.version = version) ∧
    (∀ (w : Workspace) (uri language : String) (version : Int) (t : Text)
      (batches : List (Int × List Edit)) (texts : List Text), Session t batches texts →
      contents host uri
        (w.handle host (.openDocument (.ofText uri language version t))).workspace batches =
        texts.map some) := by
  refine ⟨fun d version p m s new hd hstart hstop => ⟨fun hw => ?_, ?_⟩,
    fun d version new => ?_, fun w uri language version t batches texts h => ?_⟩
  · have h1 := place_le_width p (m ++ s)
    have h2 := place_le_width (p ++ m) s
    rw [← List.append_assoc, ← hd] at h1
    rw [← hd] at h2
    simp only [List.mem_cons, List.not_mem_nil, or_false, forall_eq_or_imp, forall_eq]
    omega
  · have hedit : TypedAll d.content [⟨some ⟨place p, place (p ++ m)⟩, new⟩] (p ++ new ++ s) := by
      rw [hd]
      exact .cons (.part p m s new hstart hstop) (.nil _)
    exact ⟨_, change_of_applyEdits (applyEdits_of_typedAll hedit) version, rfl, rfl⟩
  · have hedit : TypedAll d.content [⟨none, new⟩] new := .cons (.whole _ new) (.nil _)
    exact ⟨_, change_of_applyEdits (applyEdits_of_typedAll hedit) version, rfl, rfl⟩
  · have hopen := document?_handle_open host w (.ofText uri language version t)
    exact contents_of_session host h hopen rfl

/-- A part behind a character of two units and a pair of carriage return and line feed; and a
    batch whose first change joins the two halves of a line break that its second one counts. -/
theorem content_agrees_with_client_across_breaks :
    (¬ Severs ['a', '😀', '\r', '\n'] (['b'] ++ ['\r']) ∧
      ¬ Severs (['a', '😀', '\r', '\n'] ++ ['b']) ['\r'] ∧
      ∃ d', (Document.ofText "u" "nsql" 1 ['a', '😀', '\r', '\n', 'b', '\r']).change 2
        [⟨some ⟨⟨1, 0⟩, ⟨1, 1⟩⟩, ['c', 'd']⟩] = .ok d' ∧
        d'.content = ['a', '😀', '\r', '\n', 'c', 'd', '\r']) ∧
    contents ⟨[], none, none, .ok⟩ "u"
      ((Workspace.ofConfig .default).handle ⟨[], none, none, .ok⟩
        (.openDocument (.ofText "u" "nsql" 1 ['a', '\r', 'b', '\n', 'c']))).workspace
      [(2, [⟨some ⟨⟨1, 0⟩, ⟨1, 1⟩⟩, []⟩, ⟨some ⟨⟨1, 0⟩, ⟨1, 1⟩⟩, ['😀']⟩])] =
      [some ['a', '\r', 'b', '\n', 'c'], some ['a', '\r', '\n', '😀']] := by
  have hstart : ¬ Severs ['a', '😀', '\r', '\n'] (['b'] ++ ['\r']) := by decide
  have hstop : ¬ Severs (['a', '😀', '\r', '\n'] ++ ['b']) ['\r'] := by decide
  have hsession : Session ['a', '\r', 'b', '\n', 'c']
      [(2, [⟨some ⟨⟨1, 0⟩, ⟨1, 1⟩⟩, []⟩, ⟨some ⟨⟨1, 0⟩, ⟨1, 1⟩⟩, ['😀']⟩])]
      [['a', '\r', 'b', '\n', 'c'], ['a', '\r', '\n', '😀']] :=
    .batch 2 (.cons (.part ['a', '\r'] ['b'] ['\n', 'c'] [] (by decide) (by decide))
      (.cons (.part ['a', '\r', '\n'] ['c'] [] ['😀'] (by decide) (by decide)) (.nil _))) (.done _)
  obtain ⟨hpart, -, hall⟩ := content_agrees_with_client ⟨[], none, none, .ok⟩
  obtain ⟨-, d', hd', hcontent, -⟩ := hpart
    (.ofText "u" "nsql" 1 ['a', '😀', '\r', '\n', 'b', '\r']) 2
    ['a', '😀', '\r', '\n'] ['b'] ['\r'] ['c', 'd'] rfl hstart hstop
  exact ⟨⟨hstart, hstop, d', hd', hcontent⟩, hall _ "u" "nsql" 1 _ _ _ hsession⟩

end Nsql.Workspace
