/-
  File:      Nsql/Proofs/Workspace/Reopening.lean
  Subject:   A document that is opened again after it was closed keeps its findings.

  A task that closes a document withdraws its findings without another look at the documents. If
  the document is opened again meanwhile, its new findings could be withdrawn in place of the old
  ones. That takes a document that is opened between the two steps in which the closing task
  removes it and asks for its turn (`OpenedMeanwhile`): whoever has asked for a turn gets it before
  all passes over the new document. Nobody else makes a step between those two where tasks run on
  one processor.

  * `Course.clearsFirstFor_or_openedMeanwhile` -- there is no other way to lose findings;
  * `Cooperative.clearsFirst` -- on one processor it cannot happen;
  * **`reopened_document_keeps_findings`** -- what the client shows in the end, for any order of
    the steps, on one processor, and for `Schedule.run`;
  * `late_withdrawal_hides_findings` -- it does happen: an open document, and nothing shown of it.
-/
import Nsql.Proofs.Workspace.Convergence
import Nsql.Proofs.Workspace.Schedule

namespace Nsql

open Situation (Step)

/-! ## 1. Documents that are opened behind the back of a task -/

/-- **A document is opened while it is being closed**: a task removes it (`z`), it is opened
    (`x`), and only then the task asks for its turn to withdraw the findings (`y`). -/
def OpenedMeanwhile (uri : String) (log : List Event) : Prop :=
  ∃ z x y : Event, [z, x, y].Sublist log ∧ z.before = .begin (.closeDocument uri) ∧
    x.before.opening? = some uri ∧ y.task = z.task ∧ ∃ known, y.before = .askToClear uri known

section Courses

variable {host : Host} {ok : Situation → Event → Situation → Prop} {w : Workspace}
  {requests : List Request} {log : List Event} {σ : Situation} {uri : String}

/-- Who has not asked for its turn is about to. -/
theorem Stage.eq_askToClear_of_asksToClear {st : Stage} (h : st.asksToClear uri = true) :
    ∃ known, st = .askToClear uri known := by
  cases st with
  | askToClear u known =>
    obtain rfl : u = uri := of_decide_eq_true h
    exact ⟨known, rfl⟩
  | begin | readEngine | snapshot | check | ask | compare | publish | waitToClear | clear
  | finished => cases h

/-- **Nobody opens the document too early, or it is opened while it is being closed.** -/
theorem Course.clearsFirstFor_or_openedMeanwhile
    (h : Course host ok (.ofRequests w requests) log σ) (hdone : σ.Finished) (uri : String) :
    Course host (ClearsFirstFor uri) (.ofRequests w requests) log σ ∨ OpenedMeanwhile uri log := by
  rcases h.keeps_or_breaks (ClearsFirstFor uri) with
    hkeeps | ⟨a, x, b, σ₁, σ₂, rfl, ha, hs, hbreak, hb⟩
  · exact .inl hkeeps
  · -- the task that has removed the document is `j`
    unfold ClearsFirstFor at hbreak
    push Not at hbreak
    obtain ⟨hopen, st, hst, hasks⟩ := hbreak
    have hask : st.asksToClear uri = true := Bool.ne_false_iff.mp hasks
    obtain ⟨j, hj⟩ := List.mem_iff_getElem?.mp hst
    obtain ⟨z, hz, hzj, hzb⟩ := ha.began_of_clears hj (Stage.clears_of_asksToClear hask)
    obtain ⟨known, rfl⟩ := Stage.eq_askToClear_of_asksToClear hask
    have hne : j ≠ x.task := by
      rintro rfl
      rw [Option.some.inj (hs.before.symm.trans hj)] at hopen
      cases hopen
    have hj' : σ₂.stages[j]? = some (.askToClear uri known) := by rw [hs.other hne, hj]
    rcases hb.stays_or_moves hj' with hend | ⟨c, y, d, rfl, hyj, hyb, -⟩
    · exact absurd (hdone _ (List.mem_of_getElem? hend)) (by simp [Stage.outcome?])
    · refine .inr ⟨z, x, y, ?_, hzb, hopen, hyj.trans hzj.symm, known, hyb⟩
      have hy : [y].Sublist (c ++ y :: d) := List.singleton_sublist.mpr (by simp)
      exact (List.singleton_sublist.mpr hz).append (hy.cons_cons x)

/-- **On one processor no document is opened while it is being closed**: between the two steps
    nobody else makes one. -/
theorem Cooperative.clearsFirst {σ σ' : Situation} {e : Event} (hs : Step host σ e σ')
    (h : Cooperative σ e σ') : ClearsFirst σ e σ' := by
  intro uri hopen st hst
  rw [← Bool.not_eq_true]
  intro hask
  obtain ⟨known, rfl⟩ := Stage.eq_askToClear_of_asksToClear hask
  obtain ⟨j, hj⟩ := List.mem_iff_getElem?.mp hst
  by_cases hje : j = e.task
  · subst hje
    rw [Option.some.inj (hs.before.symm.trans hj)] at hopen
    cases hopen
  · have hway := h _ (List.mem_eraseIdx_iff_getElem?.mpr ⟨j, hje, hj⟩)
    cases hway

/-! ## 2. What is shown in the end -/

/-- An open document in the end, where nobody sets the configuration. -/
theorem Course.shown_of_fixed {d : Document} (hempty : w.documents = [])
    (hfixed : ∀ config, .configure config ∉ requests)
    (hdistinct : (requests.filterMap Request.stamp?).Nodup)
    (h : Course host (ClearsFirstFor uri) (.ofRequests w requests) log σ) (hdone : σ.Finished)
    (hd : σ.document? uri = some d) :
    σ.shown? uri = some (.ofDocument d (w.engine.check host d.content)) := by
  have hno : ∀ k ∈ log, k.reconfigures = false := fun k hk => h.reconfigures_eq_false hfixed hk
  have howed : ¬ Owed log := by
    rintro ⟨⟨k, hk, hkr⟩, -⟩
    exact absurd ((hno k hk).symm.trans hkr) (by decide)
  have hundone : ¬ Undone uri log := by
    rintro ⟨a, k, b, x, c, y, r, rfl, hkr, -⟩
    exact absurd ((hno k (by simp)).symm.trans hkr) (by decide)
  have hengine : σ.shared.workspace.engine = w.engine := h.engine_eq hno
  rw [h.shown_of_finished_for hempty hdistinct hdone howed hundone hd, Workspace.pass, hengine]

end Courses

/-- **A document that is opened again keeps its findings.** Let nobody set the configuration, and
    let no two requests bring the same version of a URI. When all tasks have come to their end, the
    client shows for every open document its version and the findings about its text, however often
    it was closed before: for any order of the steps, unless it was opened while it was being
    closed; without exception, if tasks give way only where they have to wait; and so it is for the
    tasks of `Schedule.run`, all of which come to their end. -/
theorem reopened_document_keeps_findings (host : Host) (w : Workspace) (requests : List Request)
    (hempty : w.documents = []) (hfixed : ∀ config, .configure config ∉ requests)
    (hdistinct : (requests.filterMap Request.stamp?).Nodup) :
    (∀ log σ, Course host AnyOrder (.ofRequests w requests) log σ → σ.Finished →
      ∀ uri d, σ.document? uri = some d →
        σ.shown? uri = some (.ofDocument d (w.engine.check host d.content)) ∨
          OpenedMeanwhile uri log) ∧
    (∀ log σ, Course host Cooperative (.ofRequests w requests) log σ → σ.Finished →
      ∀ uri d, σ.document? uri = some d →
        σ.shown? uri = some (.ofDocument d (w.engine.check host d.content))) ∧
    ∀ slowStart,
      (∀ o ∈ (Schedule.run host w slowStart requests).outcomes, o.isSome = true) ∧
      ∀ uri d, (Schedule.run host w slowStart requests).workspace.document? uri = some d →
        shownFor? uri (Schedule.run host w slowStart requests).published =
          some (.ofDocument d (w.engine.check host d.content)) := by
  have hcooperative : ∀ log σ, Course host Cooperative (.ofRequests w requests) log σ →
      σ.Finished → ∀ uri d, σ.document? uri = some d →
        σ.shown? uri = some (.ofDocument d (w.engine.check host d.content)) := by
    intro log σ hcourse hdone uri d hd
    have hfirst : Course host (ClearsFirstFor uri) (.ofRequests w requests) log σ :=
      hcourse.mono fun hs hok => (hok.clearsFirst hs).for uri
    exact hfirst.shown_of_fixed hempty hfixed hdistinct hdone hd
  refine ⟨fun log σ hcourse hdone uri d hd => ?_, hcooperative, fun slowStart => ?_⟩
  · refine (hcourse.clearsFirstFor_or_openedMeanwhile hdone uri).imp_left fun hfirst => ?_
    exact hfirst.shown_of_fixed hempty hfixed hdistinct hdone hd
  · obtain ⟨log, σ, hcourse, hdone, hworkspace, hpublished, houtcomes⟩ :=
      Schedule.course_of_run host w slowStart requests
    refine ⟨fun o ho => ?_, fun uri d hd => ?_⟩
    · rw [← houtcomes] at ho
      obtain ⟨st, hst, rfl⟩ := List.mem_map.mp ho
      exact hdone st hst
    · rw [← hpublished]
      rw [← hworkspace] at hd
      exact hcooperative log σ hcourse hdone uri d hd

/-- A document is opened, closed and opened again. -/
def reopening : List Request :=
  [.openDocument (.ofText "a" "nsql" 1 ['A', 'S', 'K', ' ', 'a']), .closeDocument "a",
    .openDocument (.ofText "a" "nsql" 2 ['A', 'S', 'K', ' ', 'b'])]

/-- What is shown of a document: the version, and how many findings. -/
def Publication.summary (p : Publication) : Option Int × Nat := (p.version, p.diagnostics.length)

/-- The first pass holds the turn while the document is closed and opened again; the close and the
    second pass stand behind it in the line. On one processor, where the client takes some time over
    the first publication, it ends in the same way. Where the close asks for its turn late, the
    empty list is shown in the end, and the document was opened while it was being closed. -/
theorem reopened_document_keeps_findings_behind_close :
    (∃ log σ, Course ⟨[], none, none, .ok⟩ Cooperative
        (.ofRequests (.ofConfig .default) reopening) log σ ∧ σ.Finished ∧
      σ.document? "a" = some (.ofText "a" "nsql" 2 ['A', 'S', 'K', ' ', 'b']) ∧
      (σ.shown? "a").map Publication.summary = some (some 2, 1)) ∧
    (shownFor? "a" (Schedule.run ⟨[], none, none, .ok⟩ (.ofConfig .default) (some 5)
      reopening).published).map Publication.summary = some (some 2, 1) ∧
    ∃ log σ, Course ⟨[], none, none, .ok⟩ AnyOrder
        (.ofRequests (.ofConfig .default) reopening) log σ ∧ σ.Finished ∧
      σ.document? "a" = some (.ofText "a" "nsql" 2 ['A', 'S', 'K', ' ', 'b']) ∧
      (σ.shown? "a").map Publication.summary = some (none, 0) ∧ OpenedMeanwhile "a" log := by
  have hfixed : ∀ config, .configure config ∉ reopening := by simp [reopening]
  obtain ⟨hany, hcooperative, hrun⟩ := reopened_document_keeps_findings ⟨[], none, none, .ok⟩
    (.ofConfig .default) reopening rfl hfixed (by decide)
  refine ⟨?_, ?_, ?_⟩
  · obtain ⟨log, σ, hcourse, hdone, hd⟩ :=
      exists_course_of_follow ⟨[], none, none, .ok⟩ Cooperative
        (.ofRequests (.ofConfig .default) reopening)
        (fun _ σ => σ.Finished ∧
          σ.document? "a" = some (.ofText "a" "nsql" 2 ['A', 'S', 'K', ' ', 'b']))
        [0, 0, 0, 0, 0, 0, 1, 1, 2, 2, 2, 2, 2, 0, 1, 1, 2, 2] (by decide +kernel)
    refine ⟨log, σ, hcourse, hdone, hd, ?_⟩
    rw [hcooperative log σ hcourse hdone "a" _ hd]
    decide +kernel
  · have hopen : (Schedule.run ⟨[], none, none, .ok⟩ (.ofConfig .default) (some 5)
        reopening).workspace.document? "a" =
        some (.ofText "a" "nsql" 2 ['A', 'S', 'K', ' ', 'b']) := by decide +kernel
    rw [(hrun (some 5)).2 "a" _ hopen]
    decide +kernel
  · obtain ⟨log, σ, hcourse, hdone, hd, hshown⟩ :=
      exists_course_of_follow ⟨[], none, none, .ok⟩ AnyOrder
        (.ofRequests (.ofConfig .default) reopening)
        (fun _ σ => σ.Finished ∧
          σ.document? "a" = some (.ofText "a" "nsql" 2 ['A', 'S', 'K', ' ', 'b']) ∧
          (σ.shown? "a").map Publication.summary = some (none, 0))
        [0, 0, 0, 0, 0, 0, 0, 1, 2, 2, 2, 2, 2, 2, 2, 1, 1, 1] (by decide +kernel)
    refine ⟨log, σ, hcourse, hdone, hd, hshown, (hany log σ hcourse hdone "a" _ hd).resolve_left ?_⟩
    intro hkept
    rw [hkept] at hshown
    exact absurd hshown (by decide +kernel)

/-- **Findings are lost**: the document is closed and opened again, and the new findings are shown
    before the task that closes it asks for its turn. Then it withdraws them, though the document is
    open: whoever withdraws findings does not look at the documents again. -/
theorem late_withdrawal_hides_findings :
    ∃ log σ, Course ⟨[], none, none, .ok⟩ AnyOrder
        (.ofRequests (.ofConfig .default) reopening) log σ ∧ σ.Finished ∧
      σ.document? "a" = some (.ofText "a" "nsql" 2 ['A', 'S', 'K', ' ', 'b']) ∧
      σ.shown? "a" = some (.clearing "a") :=
  exists_course_of_follow _ _ _ _ [0, 0, 0, 0, 0, 0, 0, 1, 2, 2, 2, 2, 2, 2, 2, 1, 1, 1]
    (by decide +kernel)

end Nsql
