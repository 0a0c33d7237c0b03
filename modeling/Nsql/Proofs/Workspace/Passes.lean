/-
  File:      Nsql/Proofs/Workspace/Passes.lean
  Subject:   What a pass carries from its snapshot to its publication.

  A pass keeps the engine that it has read and the document that it took as its snapshot. Its
  findings are always those of the one about the other (`Stage.Sound`). Where no two requests
  bring the same version of a URI, a version tells which document a snapshot is (`Stamped`): a
  snapshot of the current version is the current document.
-/
import Nsql.Proofs.Workspace.Turns

namespace Nsql

open Situation (Step)

namespace Stage

/-! ## 1. Engine, snapshot and findings -/

/-- The engine and the snapshot of a pass. -/
def snapshot? : Stage → Option (Engine × Document)
  | .check en d _ | .ask en d _ _ | .compare en d _ _ | .publish en d _ _ => some (en, d)
  | _ => none

/-- The findings are those of the engine about the snapshot. -/
def Sound (host : Host) : Stage → Prop
  | .ask en d f _ | .compare en d f _ | .publish en d f _ => f = en.check host d.content
  | _ => True

@[simp] theorem snapshot?_next (rest : List String) (n : Nat) : (next rest n).snapshot? = none :=
  next_elim (motive := (snapshot? · = none)) (fun _ => rfl) (fun _ _ => rfl) rest n

@[simp] theorem snapshot?_after (count : Option Nat) (p : Purpose) :
    (after count p).snapshot? = none :=
  after_elim (motive := (snapshot? · = none)) (fun _ => rfl) (fun _ _ => rfl) count p

theorem sound_of_snapshot?_eq_none {host : Host} {st : Stage} (h : st.snapshot? = none) :
    st.Sound host := by
  cases st with
  | check | ask | compare | publish => cases h
  | begin | readEngine | snapshot | askToClear | waitToClear | clear | finished => trivial

end Stage

section Moves

variable {host : Host} {i : TaskId} {s s' : Shared} {st st' : Stage}

theorem sound_of_move (h : Move host i s st s' st') (hst : st.Sound host) : st'.Sound host := by
  cases h with
  | asks | accepts => exact hst
  | checks => rfl
  | revalidates => exact Stage.sound_of_snapshot?_eq_none (Stage.snapshot?_next _ _)
  | misses | drops | publishes =>
    exact Stage.sound_of_snapshot?_eq_none (Stage.snapshot?_after _ _)
  | opens | changes | rejects | closes | validates | configures | reads | takes | asksToClear
  | comesToClear | clears => trivial

/-- A snapshot is kept, or it was just taken. -/
theorem snapshot_of_move (h : Move host i s st s' st') {en : Engine} {d : Document}
    (hst' : st'.snapshot? = some (en, d)) :
    st.snapshot? = some (en, d) ∨
      ∃ uri p, st = .snapshot en uri p ∧ s.workspace.documents.get? uri = some d := by
  cases h with
  | takes en' uri p d' hd =>
    cases hst'
    exact .inr ⟨uri, p, rfl, hd⟩
  | checks | asks | accepts =>
    cases hst'
    exact .inl rfl
  | revalidates => simp at hst'
  | misses | drops | publishes => simp at hst'
  | opens | changes | rejects | closes | validates | configures | reads | asksToClear
  | comesToClear | clears => cases hst'

end Moves

/-- **The findings of every pass are those of its engine about its snapshot.** -/
theorem Course.sound {host : Host} {ok : Situation → Event → Situation → Prop} {w : Workspace}
    {requests : List Request} {log : List Event} {σ : Situation}
    (h : Course host ok (.ofRequests w requests) log σ) {i : TaskId} {st : Stage}
    (hi : σ.stages[i]? = some st) : st.Sound host := by
  refine h.forall_stage (fun j st hj => ?_) sound_of_move i st hi
  obtain ⟨r, rfl⟩ := Situation.begin_of_ofRequests hj
  trivial

/-! ## 2. Versions that come once -/

/-- Requests that bring the same version of the same URI are the same one. -/
theorem eq_of_stamp? {requests : List Request} (hd : (requests.filterMap Request.stamp?).Nodup)
    {i j : Nat} {r r' : Request} {x : String × Int} (hi : requests[i]? = some r)
    (hj : requests[j]? = some r') (hr : r.stamp? = some x) (hr' : r'.stamp? = some x) :
    i = j := by
  have hpair := List.pairwise_filterMap.mp hd
  obtain ⟨hilt, rfl⟩ := List.getElem?_eq_some_iff.mp hi
  obtain ⟨hjlt, rfl⟩ := List.getElem?_eq_some_iff.mp hj
  rcases Nat.lt_trichotomy i j with h | h | h
  · exact absurd rfl (List.pairwise_iff_getElem.mp hpair i j hilt hjlt h x hr x hr')
  · exact h
  · exact absurd rfl (List.pairwise_iff_getElem.mp hpair j i hjlt hilt h x hr' x hr)

/-- A document was brought by a request that has begun. -/
def Brought (requests : List Request) (σ : Situation) (d : Document) : Prop :=
  ∃ (i : TaskId) (r : Request), requests[i]? = some r ∧ r.stamp? = some (d.uri, d.version) ∧
    ∀ r', σ.stages[i]? ≠ some (Stage.begin r')

/-- **Versions name documents**: all documents, in the store or in the hands of a pass, were
    brought by requests that have begun, and a snapshot with the version of the document in the
    store is that document. -/
structure Stamped (requests : List Request) (σ : Situation) : Prop where
  stored : ∀ {uri : String} {d : Document}, σ.document? uri = some d → Brought requests σ d
  carried : ∀ {j : TaskId} {st : Stage} {en : Engine} {d : Document}, σ.stages[j]? = some st →
    st.snapshot? = some (en, d) → Brought requests σ d
  unique : ∀ {uri : String} {d d' : Document} {j : TaskId} {st : Stage} {en : Engine},
    σ.document? uri = some d → σ.stages[j]? = some st → st.snapshot? = some (en, d') →
    d'.uri = uri → d'.version = d.version → d' = d

section Stamps

variable {host : Host} {requests : List Request} {σ σ' : Situation} {e : Event}

theorem Brought.step {d : Document} (h : Brought requests σ d) (hs : Step host σ e σ') :
    Brought requests σ' d := by
  obtain ⟨i, r, hi, hr, hbegun⟩ := h
  refine ⟨i, r, hi, hr, fun r' h' => ?_⟩
  rcases hs.stage_cases h' with ⟨-, hafter⟩ | ⟨-, h'⟩
  · exact not_begin_of_move hs.move r' hafter.symm
  · exact hbegun r' h'

/-- What a task that has not begun will bring is not there yet. -/
theorem Brought.ne {d : Document} (h : Brought requests σ d)
    (hd : (requests.filterMap Request.stamp?).Nodup) {j : TaskId} {r : Request} {v : Int}
    {uri : String} (hwait : σ.stages[j]? = some (.begin r)) (hj : requests[j]? = some r)
    (hr : r.stamp? = some (uri, v)) : ¬ (d.uri = uri ∧ d.version = v) := by
  rintro ⟨rfl, rfl⟩
  obtain ⟨i, r', hi, hr', hbegun⟩ := h
  have hij : i = j := eq_of_stamp? hd hi hj hr' hr
  subst hij
  exact hbegun r hwait

namespace Stamped

theorem ofRequests {w : Workspace} (hw : w.documents = []) (requests : List Request) :
    Stamped requests (.ofRequests w requests) where
  stored {uri d} h := by
    rw [Situation.document?_ofRequests hw] at h
    cases h
  carried {j st en d} hj hst := by
    obtain ⟨r, rfl⟩ := Situation.begin_of_ofRequests hj
    cases hst
  unique {uri d d' j st en} h := by
    rw [Situation.document?_ofRequests hw] at h
    cases h

/-- **What a step keeps of it.** -/
theorem step (h : Stamped requests σ) (hd : (requests.filterMap Request.stamp?).Nodup)
    (hwait : Waiting requests σ) (hs : Step host σ e σ') : Stamped requests σ' := by
  have hcarried : ∀ {j : TaskId} {st : Stage} {en : Engine} {d : Document},
      σ'.stages[j]? = some st → st.snapshot? = some (en, d) → Brought requests σ d := by
    intro j st en d hj hst
    rcases hs.stage_cases hj with ⟨-, rfl⟩ | ⟨-, hj⟩
    · rcases snapshot_of_move hs.move hst with hb | ⟨uri, p, -, hget⟩
      · exact h.carried hs.before hb
      · exact h.stored hget
    · exact h.carried hj hst
  refine ⟨fun {uri d} hget => ?_, fun hj hst => (hcarried hj hst).step hs,
    fun {uri d d' j st en} hget hj hst huri hver => ?_⟩
  · rcases hs.document_cases uri with
      ⟨hsame, -⟩ | ⟨r, d', hbefore, hr, huri, hput, -, -⟩ | ⟨-, hgone, -⟩
    · rw [hsame] at hget
      exact (h.stored hget).step hs
    · -- the task that has just begun brought it
      have hdd : d' = d := Option.some.inj (hput.symm.trans hget)
      subst hdd huri
      have hbegin := hs.before
      rw [hbefore] at hbegin
      refine ⟨e.task, r, hwait hbegin, hr, fun r' h' => ?_⟩
      rw [hs.after_eq] at h'
      exact not_begin_of_move hs.move r' (Option.some.inj h')
    · rw [hgone] at hget
      cases hget
  · rcases hs.document_cases uri with
      ⟨hsame, -⟩ | ⟨r, d₀, hbefore, hr, -, hput, -, -⟩ | ⟨-, hgone, -⟩
    · rw [hsame] at hget
      rcases hs.stage_cases hj with ⟨-, rfl⟩ | ⟨-, hj⟩
      · rcases snapshot_of_move hs.move hst with hb | ⟨uri', p, -, htaken⟩
        · exact h.unique hget hs.before hb huri hver
        · have huri' : d'.uri = uri' := Store.uri_of_get? htaken
          subst huri' huri
          exact Option.some.inj (htaken.symm.trans hget)
      · exact h.unique hget hj hst huri hver
    · -- a version that has just come is in nobody's hands yet
      have hdd : d₀ = d := Option.some.inj (hput.symm.trans hget)
      subst hdd
      have hbegin := hs.before
      rw [hbefore] at hbegin
      exact absurd ⟨huri, hver⟩ ((hcarried hj hst).ne hd hbegin (hwait hbegin) hr)
    · rw [hgone] at hget
      cases hget

theorem course {ok : Situation → Event → Situation → Prop} {w : Workspace} {log : List Event}
    (hw : w.documents = []) (hd : (requests.filterMap Request.stamp?).Nodup)
    (h : Course host ok (.ofRequests w requests) log σ) : Stamped requests σ := by
  induction h with
  | start => exact .ofRequests hw requests
  | step h hs _ ih => exact ih.step hd h.waiting hs

end Stamped

end Stamps

end Nsql
