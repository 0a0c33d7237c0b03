/-
  File:      Nsql/Proofs/Workspace/Turns.lean
  Subject:   What a step does to the documents, to the publications and to the line of tasks
             that wait for their turn.

  * `document_of_move` -- a document appears with its version when its task begins, or disappears
    when the task of a close begins; no other step touches it;
  * `published_of_move`, `Situation.Step.shown_cases` -- only the two stages that send something
    send it, and it is what the client shows from then on;
  * `accepted_iff` -- a pass publishes if the store has the version of its snapshot;
  * `turns_of_move`, `Queue` -- the line holds exactly the tasks that have asked for a turn, each
    of them once, and who sends something is the first in it; so no two tasks are about to send
    at the same time (`Queue.eq_of_sends`).
-/
import Nsql.Proofs.Workspace.Interleaving

namespace Nsql

open Situation (Step)

/-! ## 1. Documents -/

/-- The URI and the version that a request brings. -/
def Request.stamp? : Request → Option (String × Int)
  | .openDocument d => some (d.uri, d.version)
  | .changeDocument uri version _ => some (uri, version)
  | _ => none

/-- A change leaves the URI of a document alone. -/
theorem Document.uri_of_change {d d' : Document} {version : Int} {edits : List Document.Edit}
    (h : d.change version edits = .ok d') : d'.uri = d.uri := by
  unfold Document.change at h
  split at h
  · cases h
    rfl
  · cases h

/-- What a change that is not refused does to the store. -/
theorem Store.update_eq_ok {uri : String} {version : Int} {edits : List Document.Edit}
    {s s' : Store} (h : s.update uri version edits = .ok s') :
    ∃ d d', s.get? uri = some d ∧ d'.uri = uri ∧ d'.version = version ∧ s' = s.insert d' := by
  unfold Store.update at h
  split at h
  · cases h
  · rename_i d hd
    have huri : d.uri = uri := Store.uri_of_get? hd
    split at h
    · rename_i d' hchange
      cases h
      unfold Document.change at hchange
      split at hchange
      · rename_i t _
        cases hchange
        exact ⟨d, ⟨d.uri, d.language, version, (Document.rows t).length, t⟩, hd, huri, rfl, rfl⟩
      · cases hchange
    · cases h

theorem Store.erase_sublist (uri : String) (s : Store) : List.Sublist (Store.erase uri s) s := by
  induction s with
  | nil => exact .refl _
  | cons d s ih =>
    rw [Store.erase]
    split
    · exact ih.cons d
    · exact ih.cons_cons d

section Moves

variable {host : Host} {i : TaskId} {s s' : Shared} {st st' : Stage}

/-- **A step and the document of a URI**: it stays; or a task that opens or changes it has just
    begun, and is about to make a pass over it; or a task that closes it has just begun. -/
theorem document_of_move (h : Move host i s st s' st') (uri : String) :
    (s'.workspace.documents.get? uri = s.workspace.documents.get? uri ∧
      st ≠ .begin (.closeDocument uri)) ∨
    (∃ r d, st = .begin r ∧ r.stamp? = some (uri, d.version) ∧ d.uri = uri ∧
      s'.workspace.documents.get? uri = some d ∧ st' = .readEngine uri .single ∧
      (r = .openDocument d ∨ (s.workspace.documents.get? uri).isSome = true)) ∨
    (st = .begin (.closeDocument uri) ∧ s'.workspace.documents.get? uri = none ∧
      ∃ known, st' = .askToClear uri known) := by
  cases h with
  | opens d =>
    by_cases hu : d.uri = uri
    · subst hu
      exact .inr (.inl ⟨_, d, rfl, rfl, rfl, Store.get?_insert_self _ _, rfl, .inl rfl⟩)
    · exact .inl ⟨Store.get?_insert_of_ne _ _ hu, by simp⟩
  | changes uri' version edits documents hup =>
    obtain ⟨d, d', hd, huri, hver, rfl⟩ := Store.update_eq_ok hup
    by_cases hu : d'.uri = uri
    · subst huri hver hu
      exact .inr (.inl ⟨_, d', rfl, rfl, rfl, Store.get?_insert_self _ _, rfl,
        .inr (by rw [hd]; rfl)⟩)
    · exact .inl ⟨Store.get?_insert_of_ne _ _ hu, by simp⟩
  | closes uri' =>
    by_cases hu : uri' = uri
    · subst hu
      exact .inr (.inr ⟨rfl, Store.get?_erase_self _ _, _, rfl⟩)
    · exact .inl ⟨Store.get?_erase_of_ne _ hu, by simpa using hu⟩
  | configures config =>
    refine .inl ⟨?_, by simp⟩
    unfold Workspace.configure
    split <;> rfl
  | rejects | validates | revalidates | reads | misses | takes | checks | asks | accepts | drops
  | publishes | asksToClear | comesToClear | clears => exact .inl ⟨rfl, by simp⟩

/-- Only a change of the configuration changes the engine. -/
theorem engine_of_move (h : Move host i s st s' st')
    (hst' : st' ≠ .finished (.configured true)) :
    s'.workspace.engine = s.workspace.engine := by
  cases h with
  | configures config =>
    by_cases hsame : s.workspace.config.same config = true
    · simp only [Workspace.configure, if_pos hsame]
    · exact absurd (by simp only [Workspace.configure, if_neg hsame]) hst'
  | opens | changes | rejects | closes | validates | revalidates | reads | misses | takes | checks
  | asks | accepts | drops | publishes | asksToClear | comesToClear | clears => rfl

/-! ## 2. Publications -/

/-- **A step and what was published**: nothing new, or the findings of a pass, or the withdrawal
    of a document's findings. -/
theorem published_of_move (h : Move host i s st s' st') :
    (s'.published = s.published ∧ (∀ en d f p, st ≠ .publish en d f p) ∧
      ∀ uri known, st ≠ .clear uri known) ∨
    (∃ en d f p, st = .publish en d f p ∧ s'.published = s.published ++ [.ofDocument d f]) ∨
    (∃ uri known, st = .clear uri known ∧ s'.published = s.published ++ [.clearing uri]) := by
  cases h with
  | publishes en d f p => exact .inr (.inl ⟨en, d, f, p, rfl, rfl⟩)
  | clears uri known => exact .inr (.inr ⟨uri, known, rfl, rfl⟩)
  | opens | changes | rejects | closes | validates | revalidates | configures | reads | misses
  | takes | checks | asks | accepts | drops | asksToClear | comesToClear =>
    exact .inl ⟨rfl, by simp, by simp⟩

end Moves

/-- The same as `document_of_move`, seen from the situations before and after. -/
theorem Situation.Step.document_cases {host : Host} {σ σ' : Situation} {e : Event}
    (hs : Step host σ e σ') (uri : String) :
    (σ'.document? uri = σ.document? uri ∧ e.before ≠ .begin (.closeDocument uri)) ∨
    (∃ r d, e.before = .begin r ∧ r.stamp? = some (uri, d.version) ∧ d.uri = uri ∧
      σ'.document? uri = some d ∧ e.after = .readEngine uri .single ∧
      (r = .openDocument d ∨ (σ.document? uri).isSome = true)) ∨
    (e.before = .begin (.closeDocument uri) ∧ σ'.document? uri = none ∧
      ∃ known, e.after = .askToClear uri known) :=
  document_of_move hs.move uri

/-- The last publication for a URI: what the client shows. -/
def shownFor? (uri : String) (published : List Publication) : Option Publication :=
  (published.filter fun p => p.uri == uri).getLast?

/-- What the client shows for a URI. -/
def Situation.shown? (σ : Situation) (uri : String) : Option Publication :=
  shownFor? uri σ.shared.published

theorem shownFor?_concat (uri : String) (published : List Publication) (p : Publication) :
    shownFor? uri (published ++ [p]) =
      if p.uri = uri then some p else shownFor? uri published := by
  unfold shownFor?
  rw [List.filter_append]
  by_cases h : p.uri = uri
  · simp [h]
  · simp [h]

/-- Whether a task is about to publish its findings about a URI. -/
def Stage.publishes (uri : String) : Stage → Bool
  | .publish _ d _ _ => decide (d.uri = uri)
  | _ => false

theorem Stage.eq_publish_of_publishes {uri : String} {st : Stage} (h : st.publishes uri = true) :
    ∃ en d f p, st = .publish en d f p ∧ d.uri = uri := by
  cases st with
  | publish en d f p => exact ⟨en, d, f, p, rfl, of_decide_eq_true h⟩
  | begin | readEngine | snapshot | check | ask | compare | askToClear | waitToClear | clear
  | finished => cases h

@[simp] theorem Stage.publishes_next (uri : String) (rest : List String) (n : Nat) :
    (next rest n).publishes uri = false :=
  next_elim (motive := (publishes uri · = false)) (fun _ => rfl) (fun _ _ => rfl) rest n

@[simp] theorem Stage.publishes_after (uri : String) (count : Option Nat) (p : Purpose) :
    (after count p).publishes uri = false :=
  after_elim (motive := (publishes uri · = false)) (fun _ => rfl) (fun _ _ => rfl) count p

section Moves

variable {host : Host} {i : TaskId} {s s' : Shared} {st st' : Stage}

/-- Whoever is about to publish has just found the version of the document unchanged. -/
theorem publishes_of_move (h : Move host i s st s' st') {uri : String}
    (hst' : st'.publishes uri = true) :
    ∃ en d f p, st = .compare en d f p ∧ st' = .publish en d f p ∧ d.uri = uri ∧
      s.workspace.documents.version? uri = some d.version := by
  cases h with
  | accepts en d f p hturn hv =>
    obtain rfl : d.uri = uri := of_decide_eq_true hst'
    exact ⟨en, d, f, p, rfl, rfl, rfl, hv⟩
  | revalidates => simp at hst'
  | misses | drops | publishes => simp at hst'
  | opens | changes | rejects | closes | validates | configures | reads | takes | checks | asks
  | asksToClear | comesToClear | clears => cases hst'

/-- A pass whose turn has come publishes if the store has the version of its snapshot. -/
theorem accepted_iff {en : Engine} {d : Document} {f : List Diagnostic} {p : Purpose}
    (h : Move host i s (.compare en d f p) s' st') :
    st' = .publish en d f p ↔ s.workspace.documents.version? d.uri = some d.version := by
  cases h with
  | accepts _ _ _ _ hturn hv => exact iff_of_true rfl hv
  | drops _ _ _ _ hturn hv =>
    refine iff_of_false (fun hp => ?_) hv
    have hno := Stage.publishes_after d.uri none p
    rw [hp] at hno
    simp [Stage.publishes] at hno

end Moves

/-- **A step and what the client shows**: the same as before, or the findings of a pass over the
    URI, or nothing any more. -/
theorem Situation.Step.shown_cases {host : Host} {σ σ' : Situation} {e : Event}
    (hs : Step host σ e σ') (uri : String) :
    (σ'.shown? uri = σ.shown? uri ∧ e.before.publishes uri = false ∧
      ∀ known, e.before ≠ .clear uri known) ∨
    (∃ en d f p, e.before = .publish en d f p ∧ d.uri = uri ∧
      σ'.shown? uri = some (.ofDocument d f)) ∨
    (∃ known, e.before = .clear uri known ∧ σ'.shown? uri = some (.clearing uri)) := by
  unfold Situation.shown?
  rcases published_of_move hs.move with
    ⟨hsame, hpub, hclear⟩ | ⟨en, d, f, p, hbefore, hpub⟩ | ⟨u, known, hbefore, hpub⟩
  · refine .inl ⟨by rw [hsame], ?_, fun known => hclear uri known⟩
    cases hb : e.before with
    | publish en d f p => exact absurd hb (hpub en d f p)
    | begin | readEngine | snapshot | check | ask | compare | askToClear | waitToClear | clear
    | finished => rfl
  · rw [hpub, shownFor?_concat]
    by_cases hu : d.uri = uri
    · exact .inr (.inl ⟨en, d, f, p, hbefore, hu, if_pos hu⟩)
    · exact .inl ⟨if_neg hu, by simp [hbefore, Stage.publishes, hu], by simp [hbefore]⟩
  · rw [hpub, shownFor?_concat]
    by_cases hu : u = uri
    · subst hu
      exact .inr (.inr ⟨known, hbefore, if_pos rfl⟩)
    · exact .inl ⟨if_neg hu, by simp [hbefore, Stage.publishes], by simp [hbefore, hu]⟩

/-! ## 3. The line -/

namespace Stage

/-- Whether a task has asked for a turn and not given it away yet. -/
def inLine : Stage → Bool
  | .compare _ _ _ _ | .publish _ _ _ _ | .waitToClear _ _ | .clear _ _ => true
  | _ => false

/-- Whether a task is about to send something. -/
def sends : Stage → Bool
  | .publish _ _ _ _ | .clear _ _ => true
  | _ => false

@[simp] theorem inLine_next (rest : List String) (n : Nat) : (next rest n).inLine = false :=
  next_elim (motive := (inLine · = false)) (fun _ => rfl) (fun _ _ => rfl) rest n

@[simp] theorem inLine_after (count : Option Nat) (p : Purpose) :
    (after count p).inLine = false :=
  after_elim (motive := (inLine · = false)) (fun _ => rfl) (fun _ _ => rfl) count p

theorem inLine_of_sends {st : Stage} (h : st.sends = true) : st.inLine = true := by
  cases st <;> first | rfl | cases h

theorem sends_of_publishes {uri : String} {st : Stage} (h : st.publishes uri = true) :
    st.sends = true := by
  obtain ⟨en, d, f, p, rfl, -⟩ := eq_publish_of_publishes h
  rfl

theorem sends_eq_false {st : Stage} (h : st.inLine = false) : st.sends = false := by
  cases hs : st.sends with
  | false => rfl
  | true =>
    rw [inLine_of_sends hs] at h
    cases h

end Stage

section Moves

variable {host : Host} {i : TaskId} {s s' : Shared} {st st' : Stage}

/-- **A step and the line**: nothing changes, though the first one may now be about to send; or
    the task takes its place at the end; or it was the first and leaves. -/
theorem turns_of_move (h : Move host i s st s' st')
    (hfirst : st.sends = true → s.turns.head? = some i) :
    (s'.turns = s.turns ∧ st'.inLine = st.inLine ∧
      (st'.sends = true → s.turns.head? = some i)) ∨
    (s'.turns = s.turns ++ [i] ∧ st.inLine = false ∧ st'.inLine = true ∧ st'.sends = false) ∨
    (s'.turns = s.turns.tail ∧ s.turns.head? = some i ∧ st.inLine = true ∧
      st'.inLine = false) := by
  cases h with
  | asks => exact .inr (.inl ⟨rfl, rfl, rfl, rfl⟩)
  | asksToClear => exact .inr (.inl ⟨rfl, rfl, rfl, rfl⟩)
  | drops en d f p hturn => exact .inr (.inr ⟨rfl, hturn, rfl, Stage.inLine_after _ _⟩)
  | publishes => exact .inr (.inr ⟨rfl, hfirst rfl, rfl, Stage.inLine_after _ _⟩)
  | clears => exact .inr (.inr ⟨rfl, hfirst rfl, rfl, rfl⟩)
  | accepts en d f p hturn => exact .inl ⟨rfl, rfl, fun _ => hturn⟩
  | comesToClear uri known hturn => exact .inl ⟨rfl, rfl, fun _ => hturn⟩
  | revalidates =>
    exact .inl ⟨rfl, Stage.inLine_next _ _,
      fun h => absurd h (by rw [Stage.sends_eq_false (Stage.inLine_next _ _)]; decide)⟩
  | misses =>
    exact .inl ⟨rfl, Stage.inLine_after _ _,
      fun h => absurd h (by rw [Stage.sends_eq_false (Stage.inLine_after _ _)]; decide)⟩
  | opens | changes | rejects | closes | validates | configures | reads | takes | checks =>
    exact .inl ⟨rfl, rfl, fun h => by cases h⟩

end Moves

/-- **The line**: the tasks that have asked for a turn stand in it, each of them once, and who is
    about to send something is the first. -/
structure Queue (σ : Situation) : Prop where
  nodup : σ.shared.turns.Nodup
  mem_iff : ∀ i, i ∈ σ.shared.turns ↔ ∃ st, σ.stages[i]? = some st ∧ st.inLine = true
  first : ∀ {i st}, σ.stages[i]? = some st → st.sends = true → σ.shared.turns.head? = some i

namespace Queue

variable {host : Host} {σ σ' : Situation} {e : Event}

/-- No two tasks are about to send at the same time. -/
theorem eq_of_sends (hq : Queue σ) {i j : TaskId} {st st' : Stage} (hi : σ.stages[i]? = some st)
    (hj : σ.stages[j]? = some st') (hst : st.sends = true) (hst' : st'.sends = true) : i = j := by
  have h := (hq.first hi hst).symm.trans (hq.first hj hst')
  exact Option.some.inj h

theorem ofRequests (w : Workspace) (requests : List Request) :
    Queue (.ofRequests w requests) where
  nodup := List.nodup_nil
  mem_iff i := by
    refine ⟨fun h => absurd h List.not_mem_nil, ?_⟩
    rintro ⟨st, hi, hst⟩
    obtain ⟨r, rfl⟩ := Situation.begin_of_ofRequests hi
    cases hst
  first hi hst := by
    obtain ⟨r, rfl⟩ := Situation.begin_of_ofRequests hi
    cases hst

/-- **What a step keeps of the line.** -/
theorem step (hq : Queue σ) (hs : Step host σ e σ') : Queue σ' := by
  have hmem : ∀ j, (∃ st, σ'.stages[j]? = some st ∧ st.inLine = true) ↔
      (j = e.task ∧ e.after.inLine = true) ∨ (j ≠ e.task ∧ j ∈ σ.shared.turns) := by
    intro j
    by_cases hj : j = e.task
    · subst hj
      simp [hs.after_eq]
    · simp [hs.other hj, hj, hq.mem_iff]
  have hmem_e : e.task ∈ σ.shared.turns ↔ e.before.inLine = true := by
    simp [hq.mem_iff, hs.before]
  rcases turns_of_move hs.move fun h => hq.first hs.before h with
    ⟨ht, hline, hsend⟩ | ⟨ht, hb, ha, hsend⟩ | ⟨ht, hhead, hb, ha⟩
  · -- nobody comes or goes
    refine ⟨by rw [ht]; exact hq.nodup, fun j => ?_, fun {j st} hj hst => ?_⟩
    · rw [hmem, ht, hline, ← hmem_e]
      by_cases hj : j = e.task <;> simp [hj]
    · rw [ht]
      rcases hs.stage_cases hj with ⟨rfl, rfl⟩ | ⟨-, hj⟩
      · exact hsend hst
      · exact hq.first hj hst
  · -- the task takes its place at the end
    have hnot : e.task ∉ σ.shared.turns := by rw [hmem_e, hb]; decide
    refine ⟨?_, fun j => ?_, fun {j st} hj hst => ?_⟩
    · rw [ht]
      exact List.Nodup.append hq.nodup (List.nodup_singleton _) (by simpa using hnot)
    · rw [hmem, ht, List.mem_append, List.mem_singleton]
      by_cases hj : j = e.task <;> simp [hj, ha]
    · rw [ht]
      rcases hs.stage_cases hj with ⟨rfl, rfl⟩ | ⟨-, hj⟩
      · rw [hsend] at hst
        cases hst
      · rw [List.head?_append, hq.first hj hst]
        rfl
  · -- the first one leaves
    obtain ⟨rest, hrest⟩ : ∃ rest, σ.shared.turns = e.task :: rest := by
      cases hturns : σ.shared.turns with
      | nil => rw [hturns] at hhead; cases hhead
      | cons i rest =>
        rw [hturns] at hhead
        cases hhead
        exact ⟨rest, rfl⟩
    have hnodup := hq.nodup
    rw [hrest] at hnodup
    obtain ⟨hnot, hnodup⟩ := List.nodup_cons.mp hnodup
    refine ⟨by rw [ht, hrest]; exact hnodup, fun j => ?_, fun {j st} hj hst => ?_⟩
    · rw [hmem, ht, hrest, List.tail_cons, List.mem_cons]
      by_cases hj : j = e.task
      · subst hj
        simp [ha, hnot]
      · simp [hj]
    · rcases hs.stage_cases hj with ⟨rfl, rfl⟩ | ⟨hne, hj⟩
      · rw [Stage.sends_eq_false ha] at hst
        cases hst
      · have := (hq.first hj hst).symm.trans hhead
        exact absurd (Option.some.inj this) hne

/-- **The line at any time of a course.** -/
theorem course {ok : Situation → Event → Situation → Prop} {w : Workspace}
    {requests : List Request} {log : List Event}
    (h : Course host ok (.ofRequests w requests) log σ) : Queue σ := by
  induction h with
  | start => exact .ofRequests w requests
  | step _ hs _ ih => exact ih.step hs

end Queue

end Nsql
