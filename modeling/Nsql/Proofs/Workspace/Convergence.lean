/-
  File:      Nsql/Proofs/Workspace/Convergence.lean
  Subject:   What the client shows when all tasks have come to their end.

  While a document is open, one of three things holds of it at any time (`Shows`): the engine was
  changed and the documents have not been checked since (`Owed`); a pass over the document with
  the engine of now is under way or still to come (`Pending`); or the client shows the findings of
  the engine of now about the document as it is now, and nothing that is under way will replace
  them by others (`Settled`). At the end only the first and the last of these are left.

  * `Shows.step`, `Shows.course` -- one step keeps it, so a whole course does;
  * `Course.shown_of_finished` -- what an open document shows in the end;
  * `findings_converge` -- the same without changes of the engine, with the closed documents.
-/
import Nsql.Proofs.Workspace.Clearing
import Nsql.Proofs.Workspace.Engines

namespace Nsql

open Situation (Step)

/-! ## 1. Passes that are still to publish -/

/-- The purpose of a pass. -/
def Stage.purpose? : Stage → Option Purpose
  | .readEngine _ p | .snapshot _ _ p | .check _ _ p | .ask _ _ _ p | .compare _ _ _ p
  | .publish _ _ _ p => some p
  | _ => none

/-- Task `i` is to read the engine for a pass over the URI, or it has read the engine of now and
    checks the document `d` or is to take it. -/
def Heads (log : List Event) (uri : String) (d : Document) (i : TaskId) : Stage → Prop
  | .readEngine u _ => u = uri
  | .snapshot _ u _ => u = uri ∧ Fresh log i
  | .check _ d' _ | .ask _ d' _ _ | .compare _ d' _ _ | .publish _ d' _ _ => d' = d ∧ Fresh log i
  | _ => False

/-- **A pass over the document with the engine of now** is under way, or it comes later in a check
    of all documents. -/
def Pending (log : List Event) (uri : String) (d : Document) (i : TaskId) (st : Stage) : Prop :=
  Heads log uri d i st ∨ ∃ rest n, st.purpose? = some (.each rest n) ∧ uri ∈ rest

section Pending

variable {host : Host} {log log' : List Event} {uri : String} {d : Document} {i : TaskId}
  {s s' : Shared} {st st' : Stage}

theorem pending_next {rest : List String} (h : uri ∈ rest) (n : Nat) :
    Pending log uri d i (.next rest n) := by
  cases rest with
  | nil => cases h
  | cons u rest =>
    rcases List.mem_cons.mp h with rfl | h
    · exact .inl rfl
    · exact .inr ⟨rest, n, rfl, h⟩

theorem pending_after {p : Purpose} (count : Option Nat)
    (h : ∃ rest n, some p = some (.each rest n) ∧ uri ∈ rest) :
    Pending log uri d i (.after count p) := by
  obtain ⟨rest, n, hp, hu⟩ := h
  cases hp
  exact pending_next hu _

theorem Pending.mono (h : Pending log uri d i st) (hkeep : Fresh log i → Fresh log' i) :
    Pending log' uri d i st := by
  rcases h with h | h
  · refine .inl ?_
    cases st with
    | readEngine => exact h
    | snapshot | check | ask | compare | publish => exact ⟨h.1, hkeep h.2⟩
    | begin | askToClear | waitToClear | clear | finished => cases h
  · exact .inr h

theorem not_pending_of_outcome? (hst : st.outcome?.isSome = true) : ¬ Pending log uri d i st := by
  cases st with
  | finished =>
    rintro (h | ⟨rest, n, h, -⟩)
    · cases h
    · cases h
  | begin | readEngine | snapshot | check | ask | compare | publish | askToClear | waitToClear
  | clear => cases hst

/-- **A pass goes on until it publishes**: as long as the document is the same, its version is
    found unchanged. -/
theorem pending_of_move (h : Move host i s st s' st')
    (hd : s.workspace.documents.get? uri = some d) (hkeep : Fresh log i → Fresh log' i)
    (hread : ∀ u p, st = .readEngine u p → Fresh log' i) (hp : Pending log uri d i st) :
    Pending log' uri d i st' ∨ ∃ en f p, st = .publish en d f p ∧ Fresh log i := by
  cases h with
  | reads u p =>
    rcases hp with rfl | hp
    · exact .inl (.inl ⟨rfl, hread _ _ rfl⟩)
    · exact .inl (.inr hp)
  | misses en u p hnone =>
    rcases hp with ⟨rfl, -⟩ | hp
    · rw [hnone] at hd
      cases hd
    · exact .inl (pending_after none hp)
  | takes en u p d' hd' =>
    rcases hp with ⟨rfl, hf⟩ | hp
    · exact .inl (.inl ⟨Option.some.inj (hd'.symm.trans hd), hkeep hf⟩)
    · exact .inl (.inr hp)
  | checks | asks | accepts =>
    rcases hp with ⟨rfl, hf⟩ | hp
    · exact .inl (.inl ⟨rfl, hkeep hf⟩)
    · exact .inl (.inr hp)
  | drops en d' f p hturn hv =>
    rcases hp with ⟨rfl, -⟩ | hp
    · refine absurd ?_ hv
      rw [Store.version?, Store.uri_of_get? hd, hd]
      rfl
    · exact .inl (pending_after none hp)
  | publishes en d' f p =>
    rcases hp with ⟨rfl, hf⟩ | hp
    · exact .inr ⟨en, f, p, rfl, hf⟩
    · exact .inl (pending_after (some f.length) hp)
  | opens | changes | rejects | closes | validates | revalidates | configures | asksToClear
  | comesToClear | clears =>
    rcases hp with hp | ⟨rest, n, hp, -⟩
    · cases hp
    · cases hp

end Pending

/-! ## 2. Documents whose findings are shown -/

/-- **The findings are shown and stay**: they are those of the engine of now about the document as
    it is now, whoever is about to publish has this document, nobody is about to withdraw them, and
    the pass that published them, or one before it, had read the engine of now. -/
structure Settled (host : Host) (uri : String) (d : Document) (log : List Event) (σ : Situation) :
    Prop where
  shown : σ.shown? uri = some (σ.shared.workspace.pass host d)
  publishers : ∀ {i : TaskId} {st : Stage} {en : Engine} {d' : Document},
    σ.stages[i]? = some st → st.publishes uri = true → st.snapshot? = some (en, d') → d' = d
  uncleared : ∀ {i : TaskId} {st : Stage}, σ.stages[i]? = some st → st.clears uri = false
  renewed : ∃ b x c, recent log = b ++ x :: c ∧ x.publishes uri = true ∧
    ∃ z ∈ b, z.task = x.task ∧ z.reads = true

section Settled

variable {host : Host} {requests : List Request} {log : List Event} {σ σ' : Situation} {e : Event}
  {uri : String} {d : Document}

/-- The engine stays, and so does what it finds in a document. -/
theorem Situation.Step.pass_eq (hs : Step host σ e σ') (he : e.reconfigures = false) :
    σ'.shared.workspace.pass host d = σ.shared.workspace.pass host d := by
  have hengine : σ'.shared.workspace.engine = σ.shared.workspace.engine := hs.engine_eq he
  unfold Workspace.pass
  rw [hengine]

/-- The publication of a pass that has read the engine of now. -/
theorem pass_eq_of_fresh (hr : ReadBy log σ) {i : TaskId} {en : Engine} {f : List Diagnostic}
    {p : Purpose} (hi : σ.stages[i]? = some (.publish en d f p))
    (hsound : (Stage.publish en d f p).Sound host) (hf : Fresh log i) :
    Publication.ofDocument d f = σ.shared.workspace.pass host d := by
  have hen : en = σ.shared.workspace.engine := hr.fresh hi rfl hf
  have hfind : f = en.check host d.content := hsound
  rw [hfind, hen]
  rfl

/-- **A pass with the engine of now has published**: nobody else has the turn, and nobody who
    would withdraw the findings is left in the line. -/
theorem settled_of_publish (hs : Step host σ e σ') (hq : Queue σ) (ho : InOrder uri σ)
    (hr : ReadBy log σ) (hsound : e.before.Sound host) {en : Engine} {f : List Diagnostic}
    {p : Purpose} (hbefore : e.before = .publish en d f p) (hf : Fresh log e.task)
    (hd : σ.document? uri = some d) (he : e.reconfigures = false) :
    Settled host uri d (log ++ [e]) σ' := by
  have huri : d.uri = uri := Store.uri_of_get? hd
  have hpub : e.publishes uri = true := by simp [Event.publishes, hbefore, Stage.publishes, huri]
  have hsends : e.before.sends = true := Stage.sends_of_publishes hpub
  refine ⟨?_, fun {i st en' d'} hi hst hsn => ?_, fun {i st} hi => ?_, ?_⟩
  · rw [hs.pass_eq he]
    have hat := hs.before
    rw [hbefore] at hat hsound
    rcases hs.shown_cases uri with ⟨-, hno, -⟩ | ⟨en', d', f', p', hb, -, hshown⟩ | ⟨known, hb, -⟩
    · exact absurd (hpub.symm.trans hno) (by decide)
    · rw [hbefore] at hb
      cases hb
      rw [hshown, pass_eq_of_fresh hr hat hsound hf]
    · rw [hbefore] at hb
      cases hb
  · rcases hs.stage_cases hi with ⟨-, rfl⟩ | ⟨hne, hi⟩
    · obtain ⟨_, _, _, _, hb, -⟩ := publishes_of_move hs.move hst
      rw [hbefore] at hb
      cases hb
    · exact absurd (hq.eq_of_sends hi hs.before (Stage.sends_of_publishes hst) hsends) hne
  · rcases hs.stage_cases hi with ⟨-, rfl⟩ | ⟨-, hi⟩
    · rw [← Bool.not_eq_true]
      intro hc
      rcases clears_of_move hs.move hc with hb | hb
      · rw [hbefore] at hb
        cases hb
      · rw [hbefore] at hb
        cases hb
    · exact ho.clears_eq_false hq hd hs.before (by rw [hbefore]; rfl)
        (hq.first hs.before hsends) (Stage.inLine_of_sends hsends) hi
  · obtain ⟨z, hz, hzi⟩ := hf
    exact ⟨recent log, e, [], recent_concat he, hpub, z, hz, hzi⟩

/-- Where a document's findings are settled and no change of the engine is undone, whoever
    publishes has read the engine of now. -/
theorem Settled.fresh (h : Settled host uri d log σ) (hr : ReadBy log σ) (hs : Step host σ e σ')
    (hpub : e.publishes uri = true) (hundone : ¬ Undone uri (log ++ [e])) :
    Fresh log e.task := by
  obtain ⟨en, d', f, p, hbefore, -⟩ := Stage.eq_publish_of_publishes hpub
  have hen : e.before.engine? = some en := by
    rw [hbefore]
    rfl
  by_contra hf
  rcases recent_cases log with hall | ⟨a, k, hlog, hk⟩
  · obtain ⟨z, hz, hzi⟩ := hr.known hs.before hen
    exact hf ⟨z, by rw [hall]; exact hz, hzi⟩
  · obtain ⟨b, x, c, hrecent, hx, hxr⟩ := h.renewed
    refine hundone ⟨a, k, b, x, c, e, [], ?_, hk, hx, hpub, hxr, fun z hz hzi => ?_⟩
    · rw [hlog, hrecent]
      simp
    · rw [← Bool.not_eq_true]
      exact fun hzr => hf ⟨z, by rw [hrecent]; exact hz, hzi, hzr⟩

/-- **What a step keeps of it**, as long as the document and the engine stay. -/
theorem Settled.step (h : Settled host uri d log σ) (hs : Step host σ e σ') (hr : ReadBy log σ)
    (hst : Stamped requests σ) (hsound : e.before.Sound host) (hd : σ.document? uri = some d)
    (hclose : e.before ≠ .begin (.closeDocument uri)) (he : e.reconfigures = false)
    (hundone : ¬ Undone uri (log ++ [e])) : Settled host uri d (log ++ [e]) σ' := by
  refine ⟨?_, fun {i st en d'} hi hpub hsn => ?_, fun {i st} hi => ?_, ?_⟩
  · rw [hs.pass_eq he]
    rcases hs.shown_cases uri with
      ⟨hsame, -⟩ | ⟨en, d', f, p, hb, huri, hshown⟩ | ⟨known, hb, -⟩
    · rw [hsame, h.shown]
    · have hpub : e.publishes uri = true := by
        simp [Event.publishes, hb, Stage.publishes, huri]
      have hf := h.fresh hr hs hpub hundone
      have hat := hs.before
      rw [hb] at hat hsound
      obtain rfl : d' = d := h.publishers hat (by simp [Stage.publishes, huri]) rfl
      rw [hshown, pass_eq_of_fresh hr hat hsound hf]
    · have hno := h.uncleared hs.before
      simp [hb, Stage.clears] at hno
  · rcases hs.stage_cases hi with ⟨-, rfl⟩ | ⟨-, hi⟩
    · obtain ⟨en₀, d₀, f, p, hb, ha, huri, hv⟩ := publishes_of_move hs.move hpub
      rw [ha] at hsn
      cases hsn
      have hget : σ.shared.workspace.documents.get? uri = some d := hd
      rw [Store.version?, hget] at hv
      exact hst.unique hd hs.before (by rw [hb]; rfl) huri (Option.some.inj hv).symm
    · exact h.publishers hi hpub hsn
  · rcases hs.stage_cases hi with ⟨-, rfl⟩ | ⟨-, hi⟩
    · rw [← Bool.not_eq_true]
      intro hc
      rcases clears_of_move hs.move hc with hb | hb
      · exact hclose hb
      · exact absurd ((h.uncleared hs.before).symm.trans hb) (by decide)
    · exact h.uncleared hi
  · obtain ⟨b, x, c, hrecent, hx, hxr⟩ := h.renewed
    refine ⟨b, x, c ++ [e], ?_, hx, hxr⟩
    rw [recent_concat he, hrecent, List.append_assoc, List.cons_append]

end Settled

/-! ## 3. What holds of an open document at any time -/

/-- An open document waits for a check of all documents, or for a pass of its own, or its findings
    are shown and stay. -/
def Shows (host : Host) (uri : String) (log : List Event) (σ : Situation) : Prop :=
  ∀ d, σ.document? uri = some d → Owed log ∨
    (∃ (i : TaskId) (st : Stage), σ.stages[i]? = some st ∧ Pending log uri d i st) ∨
    Settled host uri d log σ

section Shows

variable {host : Host} {requests : List Request} {log : List Event} {σ σ' : Situation} {e : Event}
  {uri : String} {d : Document}

/-- Who begins to check all documents will come to each of them. -/
theorem pending_of_revalidates (hs : Step host σ e σ') (he : e.revalidates = true)
    (hd : σ'.document? uri = some d) : Pending (log ++ [e]) uri d e.task e.after := by
  have hbefore := Event.revalidates_iff.mp he
  have hmove := hs.move
  rw [hbefore] at hmove
  have hget : σ'.shared.workspace.documents.get? uri = some d := hd
  generalize e.after = st', σ'.shared = s' at hmove hget
  cases hmove with
  | revalidates uris h => exact pending_next (h.mem_iff.mpr (Store.mem_uris_of_get? hget)) 0

/-- **What a step does to a pass that was under way**, when the document and the engine stay. -/
theorem pending_or_settled (hs : Step host σ e σ') (hq : Queue σ) (ho : InOrder uri σ)
    (hr : ReadBy log σ) (hsound : e.before.Sound host) (hd : σ.document? uri = some d)
    (he : e.reconfigures = false) {i : TaskId} {st : Stage} (hi : σ.stages[i]? = some st)
    (hp : Pending log uri d i st) :
    (∃ (i : TaskId) (st : Stage), σ'.stages[i]? = some st ∧ Pending (log ++ [e]) uri d i st) ∨
      Settled host uri d (log ++ [e]) σ' := by
  by_cases hie : i = e.task
  · subst hie
    obtain rfl : e.before = st := Option.some.inj (hs.before.symm.trans hi)
    have hread : ∀ u p, e.before = .readEngine u p → Fresh (log ++ [e]) e.task := by
      intro u p hb
      exact fresh_of_reads (by simp [Event.reads, hb]) he
    rcases pending_of_move hs.move hd (fun hf => hf.concat he) hread hp with
      hp | ⟨en, f, p, hb, hf⟩
    · exact .inl ⟨e.task, e.after, hs.after_eq, hp⟩
    · exact .inr (settled_of_publish hs hq ho hr hsound hb hf hd he)
  · exact .inl ⟨i, st, by rw [hs.other hie, hi], hp.mono fun hf => hf.concat he⟩

/-- **One step.** -/
theorem Shows.step (h : Shows host uri log σ) (hs : Step host σ e σ') (hq : Queue σ)
    (ho : InOrder uri σ) (hr : ReadBy log σ) (hst : Stamped requests σ)
    (hsound : e.before.Sound host) (hundone : ¬ Undone uri (log ++ [e])) :
    Shows host uri (log ++ [e]) σ' := by
  intro d hd
  cases he : e.reconfigures with
  | true => exact .inl (owed_of_reconfigures he)
  | false =>
    cases hv : e.revalidates with
    | true =>
      exact .inr (.inl ⟨e.task, e.after, hs.after_eq, pending_of_revalidates hs hv hd⟩)
    | false =>
      rcases hs.document_cases uri with
        ⟨hsame, hclose⟩ | ⟨r, d', -, -, -, -, hafter, -⟩ | ⟨-, hgone, -⟩
      · rw [hsame] at hd
        rcases h d hd with howed | ⟨i, st, hi, hp⟩ | hset
        · exact .inl (howed.concat he hv)
        · exact .inr (pending_or_settled hs hq ho hr hsound hd he hi hp)
        · exact .inr (.inr (hset.step hs hr hst hsound hd hclose he hundone))
      · -- whoever has just put the document in is about to make a pass over it
        exact .inr (.inl ⟨e.task, e.after, hs.after_eq, .inl (by rw [hafter]; rfl)⟩)
      · rw [hgone] at hd
        cases hd

variable {w : Workspace}

/-- **A whole course.** -/
theorem Shows.course (hw : w.documents = []) (hd : (requests.filterMap Request.stamp?).Nodup)
    (h : Course host (ClearsFirstFor uri) (.ofRequests w requests) log σ)
    (hundone : ¬ Undone uri log) : Shows host uri log σ := by
  induction h with
  | start =>
    intro d hd
    rw [Situation.document?_ofRequests hw] at hd
    cases hd
  | step h hs _ ih =>
    exact (ih fun hu => hundone hu.concat).step hs (.course h) (.course hw hd h) (.course h)
      (.course hw hd h) (h.sound hs.before) hundone

/-! ## 4. The end -/

/-- **What an open document shows in the end**: the findings of the engine of now about it. -/
theorem Course.shown_of_finished_for (hw : w.documents = [])
    (hdist : (requests.filterMap Request.stamp?).Nodup)
    (h : Course host (ClearsFirstFor uri) (.ofRequests w requests) log σ) (hdone : σ.Finished)
    (howed : ¬ Owed log) (hundone : ¬ Undone uri log) (hd : σ.document? uri = some d) :
    σ.shown? uri = some (σ.shared.workspace.pass host d) := by
  rcases Shows.course hw hdist h hundone d hd with ho | ⟨i, st, hi, hp⟩ | hset
  · exact absurd ho howed
  · exact absurd hp (not_pending_of_outcome? (hdone st (List.mem_of_getElem? hi)))
  · exact hset.shown

theorem Course.shown_of_finished (hw : w.documents = [])
    (hdist : (requests.filterMap Request.stamp?).Nodup)
    (h : Course host ClearsFirst (.ofRequests w requests) log σ) (hdone : σ.Finished)
    (howed : ¬ Owed log) (hundone : ¬ Undone uri log) (hd : σ.document? uri = some d) :
    σ.shown? uri = some (σ.shared.workspace.pass host d) :=
  (h.mono fun _ hok => hok.for uri).shown_of_finished_for hw hdist hdone howed hundone hd

/-- **What a closed document shows in the end**: nothing. -/
theorem Course.shown_of_closed {ok : Situation → Event → Situation → Prop}
    (h : Course host ok (.ofRequests w requests) log σ) (hdone : σ.Finished)
    (hclosed : .closeDocument uri ∈ requests) (hgone : σ.document? uri = none) :
    σ.shown? uri = some (.clearing uri) := by
  have hend : ∀ {i : TaskId} {st : Stage}, σ.stages[i]? = some st → st.outcome?.isSome = true :=
    fun hi => hdone _ (List.mem_of_getElem? hi)
  obtain ⟨i, hi⟩ := List.mem_iff_getElem?.mp hclosed
  have hbegun : Closed uri log := by
    rcases h.begun hi with hst | ⟨z, hz, -, hzb⟩
    · exact absurd (hend hst) (by simp [Stage.outcome?])
    · exact ⟨z, hz, hzb⟩
  rcases h.withdrawn hgone hbegun with ⟨j, st, hj, hc⟩ | ⟨hshown, -⟩
  · have hout := hend hj
    cases st with
    | finished => cases hc
    | begin | readEngine | snapshot | check | ask | compare | publish | askToClear | waitToClear
    | clear => cases hout
  · exact hshown

end Shows

/-- **Convergence.** Let nobody set the configuration, let no two requests bring the same version
    of a URI, and let no document be opened while a task that has removed it has not yet asked for
    its turn. In whatever order the tasks make their steps, when all have come to their end the
    client shows for every open document its version and the findings about its text, and nothing
    for every document that was closed and is not open. -/
theorem findings_converge (host : Host) (w : Workspace) (requests : List Request)
    (log : List Event) (σ : Situation) (hempty : w.documents = [])
    (hfixed : ∀ config, .configure config ∉ requests)
    (hdistinct : (requests.filterMap Request.stamp?).Nodup)
    (hcourse : Course host ClearsFirst (.ofRequests w requests) log σ) (hdone : σ.Finished) :
    (∀ uri d, σ.document? uri = some d →
      σ.shown? uri = some (.ofDocument d (w.engine.check host d.content))) ∧
    ∀ uri, .closeDocument uri ∈ requests → σ.document? uri = none →
      σ.shown? uri = some (.clearing uri) := by
  have hno : ∀ k ∈ log, k.reconfigures = false :=
    fun k hk => hcourse.reconfigures_eq_false hfixed hk
  refine ⟨fun uri d hd => ?_, fun uri hclosed hgone => hcourse.shown_of_closed hdone hclosed hgone⟩
  have howed : ¬ Owed log := by
    rintro ⟨⟨k, hk, hkr⟩, -⟩
    exact absurd ((hno k hk).symm.trans hkr) (by decide)
  have hundone : ¬ Undone uri log := by
    rintro ⟨a, k, b, x, c, y, r, rfl, hkr, -⟩
    exact absurd ((hno k (by simp)).symm.trans hkr) (by decide)
  have hengine : σ.shared.workspace.engine = w.engine := hcourse.engine_eq hno
  rw [hcourse.shown_of_finished hempty hdistinct hdone howed hundone hd, Workspace.pass, hengine]

/-- Two documents are opened and all are checked; then one of them is changed and the other one
    closed. -/
def crossing : List Request :=
  [.openDocument (.ofText "a" "nsql" 1 ['A', 'S', 'K', ' ', 'a']),
    .openDocument (.ofText "b" "nsql" 1 ['A', 'S', 'K', ' ', 'b']), .revalidateAll,
    .changeDocument "a" 2 [⟨none, [';']⟩], .closeDocument "b"]

/-- One document is changed while its first pass is about to publish, the other one is closed while
    its pass is, and the check of all documents has both of them on its list. -/
theorem findings_converge_crossing :
    ∃ log σ, Course ⟨[], none, none, .ok⟩ ClearsFirst
        (.ofRequests (.ofConfig .default) crossing) log σ ∧
      σ.Finished ∧ σ.document? "a" = some (.ofText "a" "nsql" 2 [';']) ∧
      σ.shown? "a" = some ⟨"a", [], some 2⟩ ∧
      σ.document? "b" = none ∧ σ.shown? "b" = some ⟨"b", [], none⟩ := by
  obtain ⟨log, σ, hcourse, hdone, ha, hb⟩ :=
    exists_course_of_follow ⟨[], none, none, .ok⟩ ClearsFirst
      (.ofRequests (.ofConfig .default) crossing)
      (fun _ σ => σ.Finished ∧ σ.document? "a" = some (.ofText "a" "nsql" 2 [';']) ∧
        σ.document? "b" = none)
      [0, 0, 0, 0, 0, 0, 1, 1, 1, 1, 1, 2, 2, 2, 2, 2, 3, 0, 1, 4, 4, 1, 2, 2, 2, 4, 4,
        3, 3, 3, 3, 3, 3] (by decide +kernel)
  have hfixed : ∀ config, .configure config ∉ crossing := by simp [crossing]
  obtain ⟨hopen, hclosed⟩ := findings_converge ⟨[], none, none, .ok⟩ (.ofConfig .default)
    crossing log σ rfl hfixed (by decide) hcourse hdone
  refine ⟨log, σ, hcourse, hdone, ha, ?_, hb, hclosed "b" (by decide) hb⟩
  rw [hopen "a" _ ha]
  decide +kernel

/-- Without the promise a document may be open and show nothing: it is opened behind the back of a
    task that has removed it and withdraws its findings late. And a document that was closed shows
    its findings when it has been opened since. -/
theorem closing_crosses_opening :
    (∃ log σ, Course ⟨[], none, none, .ok⟩ AnyOrder
      (.ofRequests (.ofConfig .default)
        [.closeDocument "a", .openDocument (.ofText "a" "nsql" 1 ['A', 'S', 'K', ' ', 'a'])])
        log σ ∧
      σ.Finished ∧ σ.document? "a" = some (.ofText "a" "nsql" 1 ['A', 'S', 'K', ' ', 'a']) ∧
      σ.shown? "a" = some (.clearing "a")) ∧
    ∃ log σ, Course ⟨[], none, none, .ok⟩ AnyOrder
      (.ofRequests (.ofConfig .default)
        [.closeDocument "a", .openDocument (.ofText "a" "nsql" 1 ['A', 'S', 'K', ' ', 'a'])])
        log σ ∧
      σ.Finished ∧ σ.shown? "a" ≠ some (.clearing "a") :=
  ⟨exists_course_of_follow _ _ _ _ [0, 1, 1, 1, 1, 1, 1, 1, 0, 0, 0] (by decide +kernel),
    exists_course_of_follow _ _ _ _ [0, 0, 0, 0, 1, 1, 1, 1, 1, 1, 1] (by decide +kernel)⟩

end Nsql
