/-
  File:      Nsql/Proofs/Workspace/Alone.lean
  Subject:   A task that runs alone does what its request does from beginning to end.

  `Workspace.handle` deals with a request at once, a task does so in steps. Where no other task is
  under way the two come to the same: the same documents, configuration and engine, the same
  publications and checks, the same outcome (`Replied`, since a check of all documents may take them
  in any order). So what is shown of requests that are dealt with one after the other, and of tasks
  that run at the same time, is about one program.

  * `Alone.move` -- the next step of a lone task;
  * `Alone.pass`, `Alone.passes` -- one pass, and the passes over all documents;
  * `Alone.replied` -- a request, from any state in which nobody waits for a turn;
  * **`lone_task_replies`** -- and it comes to its end.
-/
import Nsql.Proofs.Workspace.Isolation
import Nsql.Proofs.Workspace.Schedule

namespace Nsql

open Situation (Step)
open Workspace (Reply Replied)

/-! ## 1. The steps of a lone task -/

/-- What a reply does to what all tasks share. -/
def Shared.settle (s : Shared) (reply : Reply) : Shared :=
  ⟨reply.workspace, s.turns, s.published ++ reply.published, s.checked ++ reply.checked⟩

namespace Shared

variable {host : Host} {s : Shared}

theorem settle_nil (s : Shared) (o : Outcome) :
    s.settle (s.workspace.replyWith host [] o) = s := by
  simp [settle, Workspace.replyWith]

/-- The passes over some documents and then over others. -/
theorem settle_settle (w : Workspace) (ds ds' : List Document) (o o' o'' : Outcome) :
    (s.settle (w.replyWith host ds o)).settle (w.replyWith host ds' o') =
      s.settle (w.replyWith host (ds ++ ds') o'') := by
  simp [settle, Workspace.replyWith]

end Shared

/-- A lone task comes from a stage to a situation. -/
def Alone (host : Host) (ok : Situation → Event → Situation → Prop) (s : Shared) (st : Stage)
    (σ : Situation) : Prop :=
  ∃ log, Course host ok ⟨s, [st]⟩ log σ

namespace Alone

variable {host : Host} {ok : Situation → Event → Situation → Prop} {s : Shared} {st : Stage}
  {σ : Situation}

/-- A lone task stands where it is, or makes a step and goes on. -/
theorem stays_or_moves (h : Alone host ok s st σ) :
    σ = ⟨s, [st]⟩ ∨ ∃ s' st', Move host 0 s st s' st' ∧ Alone host ok s' st' σ := by
  obtain ⟨log, h⟩ := h
  cases log with
  | nil => exact .inl h.eq_start
  | cons e log =>
    obtain ⟨σ₁, hfirst, hrest⟩ := Course.split (a := [e]) h
    have hfirst : Course host ok ⟨s, [st]⟩ ([] ++ [e]) σ₁ := hfirst
    obtain ⟨σ₀, hstart, hs, -⟩ := hfirst.last
    obtain rfl := hstart.eq_start
    obtain ⟨task, before, after⟩ := e
    obtain ⟨shared, stages⟩ := σ₁
    have hbefore : [st][task]? = some before := hs.before
    cases task with
    | succ => simp at hbefore
    | zero =>
      obtain rfl : st = before := Option.some.inj hbefore
      obtain rfl : stages = [after] := hs.stages
      exact .inr ⟨shared, after, hs.move, log, hrest⟩

/-- **The next step**, as long as the task has not come to its end. -/
theorem move (h : Alone host ok s st σ) (hdone : σ.Finished) (hst : st.outcome? = none) :
    ∃ s' st', Move host 0 s st s' st' ∧ Alone host ok s' st' σ := by
  rcases h.stays_or_moves with rfl | hmove
  · have hend := hdone st List.mem_cons_self
    rw [hst] at hend
    cases hend
  · exact hmove

theorem eq_of_finished {o : Outcome} (h : Alone host ok s (.finished o) σ) :
    σ = ⟨s, [.finished o]⟩ := by
  rcases h.stays_or_moves with rfl | ⟨_, _, hmove, -⟩
  · rfl
  · cases hmove

/-! ## 2. Passes -/

/-- **One pass**: nobody changes the document meanwhile, so its findings are published. -/
theorem pass {uri : String} {p : Purpose} (h : Alone host ok s (.readEngine uri p) σ)
    (hdone : σ.Finished) (hturns : s.turns = []) :
    ∃ count, (s.workspace.recheck host uri).outcome = .validated count ∧
      Alone host ok (s.settle (s.workspace.recheck host uri)) (.after count p) σ := by
  obtain ⟨w, turns, published, checked⟩ := s
  obtain rfl : turns = [] := hturns
  obtain ⟨_, _, hmove, h⟩ := h.move hdone rfl
  cases hmove
  obtain ⟨_, _, hmove, h⟩ := h.move hdone rfl
  cases hmove with
  | misses en u p hnone =>
    have hnone : w.document? uri = none := hnone
    refine ⟨none, ?_, ?_⟩
    · rw [Workspace.recheck, hnone]
      rfl
    · rw [Workspace.recheck, hnone]
      dsimp only
      rw [Shared.settle_nil]
      exact h
  | takes en u p d hd =>
    have hopen : w.document? uri = some d := hd
    have hversion : w.documents.version? d.uri = some d.version := by
      rw [Store.uri_of_get? hd, Store.version?, hd]
      rfl
    obtain ⟨_, _, hmove, h⟩ := h.move hdone rfl
    cases hmove
    obtain ⟨_, _, hmove, h⟩ := h.move hdone rfl
    cases hmove
    obtain ⟨_, _, hmove, h⟩ := h.move hdone rfl
    cases hmove with
    | drops en d f p hturn hother => exact absurd hversion hother
    | accepts =>
      obtain ⟨_, _, hmove, h⟩ := h.move hdone rfl
      cases hmove
      refine ⟨some (w.engine.check host d.content).length, ?_, ?_⟩
      · rw [Workspace.recheck, hopen]
        rfl
      · rw [Workspace.recheck, hopen]
        exact h

/-- **The passes over all documents**, by induction on those that are still to come. -/
theorem passes {uris : List String} {n : Nat} (h : Alone host ok s (.next uris n) σ)
    (hdone : σ.Finished) (hturns : s.turns = []) (o : Outcome) :
    σ = ⟨s.settle (s.workspace.replyWith host (uris.filterMap s.workspace.document?) o),
      [.finished (.revalidated (n + (uris.filterMap s.workspace.document?).length))]⟩ := by
  induction uris generalizing s n with
  | nil =>
    rw [h.eq_of_finished, List.filterMap_nil, Shared.settle_nil]
    rfl
  | cons uri uris ih =>
    obtain ⟨count, hcount, h⟩ := h.pass hdone hturns
    rw [Workspace.recheck] at hcount h
    cases hopen : s.workspace.document? uri with
    | none =>
      rw [hopen] at hcount h
      cases hcount
      dsimp only at h
      rw [Shared.settle_nil] at h
      rw [List.filterMap_cons_none hopen]
      exact ih h hturns
    | some d =>
      rw [hopen] at hcount h
      cases hcount
      have h : Alone host ok (s.settle (s.workspace.replyWith host [d] o))
        (.next uris (n + 1)) σ := h
      have hrest : σ = ⟨(s.settle (s.workspace.replyWith host [d] o)).settle
            (s.workspace.replyWith host (uris.filterMap s.workspace.document?) o),
          [.finished (.revalidated (n + 1 + (uris.filterMap s.workspace.document?).length))]⟩ :=
        ih h hturns
      rw [hrest, Shared.settle_settle _ _ _ _ _ o, List.filterMap_cons_some hopen,
        List.singleton_append, List.length_cons, Nat.add_right_comm]
      rfl

end Alone

/-! ## 3. Requests -/

/-- The documents of a store are found under their URIs. -/
theorem Store.filterMap_get?_uris {ds : Store} (h : ds.uris.Nodup) :
    ds.uris.filterMap (Store.get? · ds) = ds := by
  induction ds with
  | nil => rfl
  | cons d ds ih =>
    obtain ⟨hnot, hds⟩ := List.nodup_cons.mp h
    have hrest : ∀ uri ∈ Store.uris ds, Store.get? uri (d :: ds) = Store.get? uri ds := by
      intro uri huri
      have hne : d.uri ≠ uri := fun he => hnot (he ▸ huri)
      rw [Store.get?, if_neg hne]
    have hfirst : Store.get? d.uri (d :: ds) = some d := by rw [Store.get?, if_pos rfl]
    show List.filterMap (Store.get? · (d :: ds)) (d.uri :: Store.uris ds) = d :: ds
    rw [List.filterMap_cons_some (f := (Store.get? · (d :: ds))) hfirst,
      List.filterMap_congr hrest, ih hds]

namespace Alone

variable {host : Host} {ok : Situation → Event → Situation → Prop} {s : Shared} {σ : Situation}

/-- A request that ends with one pass. -/
theorem recheck {uri : String} (h : Alone host ok s (.readEngine uri .single) σ)
    (hdone : σ.Finished) (hturns : s.turns = []) :
    σ = ⟨s.settle (s.workspace.recheck host uri),
      [.finished (s.workspace.recheck host uri).outcome]⟩ := by
  obtain ⟨count, hcount, h⟩ := h.pass hdone hturns
  rw [hcount]
  exact h.eq_of_finished

/-- **A request that a lone task deals with**, from any state in which nobody waits for a turn. -/
theorem replied {r : Request} (h : Alone host ok s (.begin r) σ) (hdone : σ.Finished)
    (hturns : s.turns = []) (hw : s.workspace.documents.uris.Nodup) :
    ∃ reply, Replied host s.workspace r reply ∧
      σ = ⟨s.settle reply, [.finished reply.outcome]⟩ := by
  obtain ⟨_, _, hmove, h⟩ := h.move hdone rfl
  cases hmove with
  | opens d => exact ⟨_, .handled _, h.recheck hdone hturns⟩
  | changes uri version edits documents hupdate =>
    refine ⟨_, .handled _, ?_⟩
    rw [Workspace.handle, hupdate]
    exact h.recheck hdone hturns
  | rejects uri version edits err hupdate =>
    refine ⟨_, .handled _, ?_⟩
    rw [Workspace.handle, hupdate, h.eq_of_finished]
    simp [Shared.settle]
  | closes uri =>
    refine ⟨_, .handled _, ?_⟩
    obtain ⟨w, turns, published, checked⟩ := s
    obtain rfl : turns = [] := hturns
    obtain ⟨_, _, hmove, h⟩ := h.move hdone rfl
    cases hmove
    obtain ⟨_, _, hmove, h⟩ := h.move hdone rfl
    cases hmove
    obtain ⟨_, _, hmove, h⟩ := h.move hdone rfl
    cases hmove
    rw [h.eq_of_finished]
    simp [Shared.settle, Shared.withDocuments, Shared.askTurn, Shared.send, Shared.endTurn,
      Workspace.handle]
  | validates uri => exact ⟨_, .handled _, h.recheck hdone hturns⟩
  | revalidates uris horder =>
    have hdocuments : (uris.filterMap s.workspace.document?).Perm s.workspace.documents := by
      have hall := horder.filterMap (Store.get? · s.workspace.documents)
      rw [Store.filterMap_get?_uris hw] at hall
      exact hall
    refine ⟨_, .inOrder _ hdocuments, ?_⟩
    rw [h.passes hdone hturns (.revalidated _), Nat.zero_add]
    rfl
  | configures config =>
    refine ⟨_, .handled _, ?_⟩
    rw [h.eq_of_finished]
    simp [Shared.settle, Workspace.handle]

end Alone

/-- **A task that runs alone does what its request does from beginning to end.** When it has come to
    its end, the workspace, the publications, the texts that were checked and the outcome are those
    of a reply to the request; and the tasks of `Schedule.run` do come to their end. -/
theorem lone_task_replies (host : Host) (w : Workspace) (r : Request)
    (hw : w.documents.uris.Nodup) :
    (∀ ok log σ, Course host ok (.ofRequests w [r]) log σ → σ.Finished →
      ∃ reply, Replied host w r reply ∧
        σ = ⟨⟨reply.workspace, [], reply.published, reply.checked⟩, [.finished reply.outcome]⟩) ∧
    ∀ slowStart, ∃ reply, Replied host w r reply ∧
      (Schedule.run host w slowStart [r]).workspace = reply.workspace ∧
      (Schedule.run host w slowStart [r]).published = reply.published ∧
      (Schedule.run host w slowStart [r]).outcomes = [some reply.outcome] := by
  have halone : ∀ ok log σ, Course host ok (.ofRequests w [r]) log σ → σ.Finished →
      ∃ reply, Replied host w r reply ∧
        σ = ⟨⟨reply.workspace, [], reply.published, reply.checked⟩, [.finished reply.outcome]⟩ := by
    intro ok log σ hcourse hdone
    have hstart : Alone host ok (.ofWorkspace w) (.begin r) σ := ⟨log, hcourse⟩
    exact hstart.replied hdone rfl hw
  refine ⟨halone, fun slowStart => ?_⟩
  obtain ⟨log, σ, hcourse, hdone, hworkspace, hpublished, houtcomes⟩ :=
    Schedule.course_of_run host w slowStart [r]
  obtain ⟨reply, hreply, rfl⟩ := halone _ log σ hcourse hdone
  exact ⟨reply, hreply, hworkspace.symm, hpublished.symm, houtcomes.symm⟩

end Nsql
