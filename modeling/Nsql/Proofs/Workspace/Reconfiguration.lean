/-
  File:      Nsql/Proofs/Workspace/Reconfiguration.lean
  Subject:   Passes that are under way while the configuration becomes another one.

  A pass goes on with the engine that it has read. When its turn comes only the version of the
  document is compared; that the engine has been changed since is not noticed. `Overtaken` says
  that the turn of such a pass comes when a pass with a newer engine has already published and the
  document is still the one that was checked: this is exactly when a change of the configuration
  is undone (`overtaken_of_undone`, `undone_of_overtaken`).

  * `configuration_prevails_unless_undone` -- otherwise all open documents show in the end what
    the engine of the last configuration finds;
  * `old_findings_outlive_the_configuration` -- a document for which this fails.
-/
import Nsql.Proofs.Workspace.Convergence

namespace Nsql

open Situation (Step)

/-! ## 1. Overtaken passes -/

/-- **A pass is overtaken**: behind a change `k` of the configuration a task reads the engine and
    publishes (`x`); after that the turn comes (`q`) of a pass that has not read the engine since
    the change, and the document is the one that this pass has checked. -/
def Overtaken (host : Host) (σ₀ : Situation) (uri : String) (log : List Event) : Prop :=
  ∃ a k b x c q r, log = a ++ k :: (b ++ x :: (c ++ q :: r)) ∧ k.reconfigures = true ∧
    x.publishes uri = true ∧ (∃ z ∈ b, z.task = x.task ∧ z.reads = true) ∧
    (∀ z ∈ b ++ x :: c, z.task = q.task → z.reads = false) ∧
    ∃ σ en d f p, Course host AnyOrder σ₀ (a ++ k :: (b ++ x :: c)) σ ∧
      q.before = .compare en d f p ∧ σ.document? uri = some d

section Turns

variable {host : Host} {ok : Situation → Event → Situation → Prop} {w : Workspace}
  {requests : List Request} {log : List Event} {σ : Situation} {uri : String}

/-- Whoever is about to publish was accepted, and nobody has sent anything since. -/
theorem Course.accepted (h : Course host ok (.ofRequests w requests) log σ) {i : TaskId}
    {en : Engine} {d : Document} {f : List Diagnostic} {p : Purpose}
    (hi : σ.stages[i]? = some (.publish en d f p)) :
    ∃ a q b, log = a ++ q :: b ∧ q = ⟨i, .compare en d f p, .publish en d f p⟩ ∧
      ∀ z ∈ b, z.before.sends = false := by
  induction h with
  | start =>
    obtain ⟨r, hr⟩ := Situation.begin_of_ofRequests hi
    cases hr
  | @step log σ σ' e h hs _ ih =>
    rcases hs.stage_cases hi with ⟨rfl, hafter⟩ | ⟨hne, hi⟩
    · refine ⟨log, e, [], rfl, ?_, fun z hz => absurd hz List.not_mem_nil⟩
      have hpub : e.after.publishes d.uri = true := by simp [← hafter, Stage.publishes]
      obtain ⟨en', d', f', p', hb, ha, -⟩ := publishes_of_move hs.move hpub
      rw [← hafter] at ha
      cases ha
      obtain ⟨task, before, after⟩ := e
      subst hb hafter
      rfl
    · obtain ⟨a, q, b, rfl, hq, hsilent⟩ := ih hi
      refine ⟨a, q, b ++ [e], by simp, hq, fun z hz => ?_⟩
      rcases List.mem_append.mp hz with hz | hz
      · exact hsilent z hz
      · rw [List.mem_singleton.mp hz, ← Bool.not_eq_true]
        intro hsends
        exact hne (Queue.eq_of_sends (.course h) hi hs.before rfl hsends)

/-- An event that is not among the later ones stands before them. -/
theorem split_before {a c l₁ l₂ : List Event} {x q : Event}
    (h : a ++ x :: c = l₁ ++ q :: l₂) (hx : x ∉ q :: l₂) :
    ∃ c₁, l₁ = a ++ x :: c₁ ∧ c = c₁ ++ q :: l₂ := by
  rcases List.append_eq_append_iff.mp h with ⟨t, hl, ht⟩ | ⟨t, -, ht⟩
  · cases t with
    | nil =>
      rw [List.nil_append] at ht
      exact absurd (ht ▸ List.mem_cons_self) hx
    | cons x' t =>
      rw [List.cons_append] at ht
      obtain ⟨rfl, rfl⟩ := List.cons.inj ht
      exact ⟨t, hl, rfl⟩
  · exact absurd (ht ▸ List.mem_append_right _ List.mem_cons_self) hx

/-- **A change that is undone was undone by an overtaken pass**: who publishes has had the turn
    since it was accepted, so it was accepted behind the newer publication. -/
theorem overtaken_of_undone (hw : w.documents = [])
    (hdist : (requests.filterMap Request.stamp?).Nodup)
    (h : Course host ok (.ofRequests w requests) log σ) (hu : Undone uri log) :
    Overtaken host (.ofRequests w requests) uri log := by
  obtain ⟨a, k, b, x, c, y, r, rfl, hk, hx, hy, hxr, hold⟩ := hu
  have hlog : a ++ k :: (b ++ x :: (c ++ y :: r)) = ((a ++ k :: b) ++ x :: c) ++ y :: r := by simp
  rw [hlog] at h
  obtain ⟨σ₁, σ₂, hbefore, hs, -⟩ := h.at
  obtain ⟨en, d, f, p, hyb, huri⟩ := Stage.eq_publish_of_publishes hy
  have hat := hs.before
  rw [hyb] at hat
  obtain ⟨l₁, q, l₂, hsplit, rfl, hsilent⟩ := hbefore.accepted hat
  have hnot : x ∉ ⟨y.task, .compare en d f p, .publish en d f p⟩ :: l₂ := by
    intro hmem
    rcases List.mem_cons.mp hmem with rfl | hmem
    · cases hx
    · exact absurd ((hsilent x hmem).symm.trans (Stage.sends_of_publishes hx)) (by decide)
  obtain ⟨c₁, rfl, rfl⟩ := split_before hsplit hnot
  rw [hsplit] at hbefore
  obtain ⟨σ₃, σ₄, hcourse, hturn, -⟩ := hbefore.at
  refine ⟨a, k, b, x, c₁, ⟨y.task, .compare en d f p, .publish en d f p⟩, l₂ ++ y :: r, by simp,
    hk, hx, hxr, fun z hz => ?_, σ₃, en, d, f, p, ?_, rfl, ?_⟩
  · refine hold z ?_
    rcases List.mem_append.mp hz with hz | hz
    · exact List.mem_append_left _ hz
    · exact List.mem_append_right _ (List.mem_append_left (_ :: l₂) hz)
  · rw [List.append_assoc] at hcourse
    exact hcourse.anyOrder
  · -- versions come once, so the document in the store is the one that was checked
    have hv := (accepted_iff hturn.move).mp rfl
    rw [huri] at hv
    obtain ⟨d₁, hd₁, hver⟩ := Option.map_eq_some_iff.mp hv
    have hst : Stamped requests σ₃ := .course hw hdist hcourse
    rw [hst.unique hd₁ hturn.before rfl huri hver.symm]
    exact hd₁

/-- **An overtaken pass undoes the change**: it finds the version unchanged and publishes. -/
theorem undone_of_overtaken (h : Course host ok (.ofRequests w requests) log σ)
    (hdone : σ.Finished) (ho : Overtaken host (.ofRequests w requests) uri log) :
    Undone uri log := by
  obtain ⟨a, k, b, x, c, q, r, rfl, hk, hx, hxr, hold, σ₁, en, d, f, p, hσ₁, hqb, hd⟩ := ho
  have hlog : a ++ k :: (b ++ x :: (c ++ q :: r)) = (a ++ k :: (b ++ x :: c)) ++ q :: r := by simp
  rw [hlog] at h
  obtain ⟨σ₁', σ₂, hcourse, hturn, -, hrest⟩ := h.at
  obtain rfl : σ₁' = σ₁ := hcourse.unique hσ₁
  have huri : d.uri = uri := Store.uri_of_get? hd
  have haccepted : q.after = .publish en d f p := by
    have hmove := hturn.move
    rw [hqb] at hmove
    refine (accepted_iff hmove).mpr (Option.map_eq_some_iff.mpr ⟨d, ?_, rfl⟩)
    rw [huri]
    exact hd
  have hat : σ₂.stages[q.task]? = some (.publish en d f p) := by
    rw [hturn.after_eq, haccepted]
  rcases hrest.stays_or_moves hat with hst | ⟨r₁, y, r₂, rfl, hyq, hyb, hnot⟩
  · exact absurd (hdone _ (List.mem_of_getElem? hst)) (by simp [Stage.outcome?])
  · refine ⟨a, k, b, x, c ++ q :: r₁, y, r₂, by simp, hk, hx, ?_, hxr, fun z hz hzy => ?_⟩
    · simp [Event.publishes, hyb, Stage.publishes, huri]
    · rw [hyq] at hzy
      rw [← List.cons_append, ← List.append_assoc] at hz
      rcases List.mem_append.mp hz with hz | hz
      · exact hold z hz hzy
      · rcases List.mem_cons.mp hz with rfl | hz
        · simp [Event.reads, hqb]
        · exact absurd hzy (hnot z hz)

end Turns

/-! ## 2. The last configuration -/

theorem follows_of_move {host : Host} {i : TaskId} {s s' : Shared} {st st' : Stage}
    (h : Move host i s st s' st') (hf : s.workspace.Follows) : s'.workspace.Follows := by
  cases h with
  | configures config => exact hf.configure config
  | opens | changes | rejects | closes | validates | revalidates | reads | misses | takes | checks
  | asks | accepts | drops | publishes | asksToClear | comesToClear | clears => exact hf

theorem Course.follows {host : Host} {ok : Situation → Event → Situation → Prop} {config : Config}
    {requests : List Request} {log : List Event} {σ : Situation}
    (h : Course host ok (.ofRequests (.ofConfig config) requests) log σ) :
    σ.shared.workspace.Follows := by
  induction h with
  | start => exact ⟨rfl, rfl⟩
  | step _ hs _ ih => exact follows_of_move hs.move ih

/-- Every change of the configuration is followed by a check of all documents. -/
def Rechecked : List Event → Prop
  | [] => True
  | k :: log => (k.reconfigures = true → ∃ z ∈ log, z.revalidates = true) ∧ Rechecked log

instance decidableRechecked : (log : List Event) → Decidable (Rechecked log)
  | [] => inferInstanceAs (Decidable True)
  | k :: log =>
    have := decidableRechecked log
    inferInstanceAs (Decidable ((k.reconfigures = true → ∃ z ∈ log, z.revalidates = true) ∧ _))

theorem Rechecked.revalidates {k : Event} {b : List Event} :
    ∀ {a : List Event}, Rechecked (a ++ k :: b) → k.reconfigures = true →
      ∃ z ∈ b, z.revalidates = true
  | [], h, hk => h.1 hk
  | _ :: _, h, hk => Rechecked.revalidates h.2 hk

theorem Rechecked.not_owed {log : List Event} (h : Rechecked log) : ¬ Owed log := by
  rintro ⟨⟨k, hk, hkr⟩, hno⟩
  rcases recent_cases log with hall | ⟨a, k', hlog, hk'⟩
  · rw [← hall] at hk
    have hlast := List.mem_rtakeWhile_imp hk
    simp [hkr] at hlast
  · rw [hlog] at h
    obtain ⟨z, hz, hzr⟩ := h.revalidates hk'
    exact absurd ((hno z hz).symm.trans hzr) (by decide)

/-- **The last configuration prevails unless a pass is overtaken.** Let every change of the
    configuration be followed by a check of all documents, let no two requests bring the same
    version of a URI, and let no document be opened while a task that has removed it has not yet
    asked for its turn. When all tasks have come to their end, a change was undone for a URI
    exactly if a pass over it was overtaken; and for every open document a change was undone, or
    the client shows what the engine of the last configuration finds in its text. -/
theorem configuration_prevails_unless_undone (host : Host) (config : Config)
    (requests : List Request) (log : List Event) (σ : Situation)
    (hdistinct : (requests.filterMap Request.stamp?).Nodup)
    (hcourse : Course host ClearsFirst (.ofRequests (.ofConfig config) requests) log σ)
    (hdone : σ.Finished) (hchecked : Rechecked log) :
    (∀ uri, Undone uri log ↔
      Overtaken host (.ofRequests (.ofConfig config) requests) uri log) ∧
    ∀ uri d, σ.document? uri = some d → Undone uri log ∨
      σ.shown? uri = some (.ofDocument d
        ((Engine.ofConfig σ.shared.workspace.config).check host d.content)) := by
  refine ⟨fun uri => ⟨overtaken_of_undone rfl hdistinct hcourse,
    undone_of_overtaken hcourse hdone⟩, fun uri d hd => ?_⟩
  by_cases hundone : Undone uri log
  · exact .inl hundone
  · refine .inr ?_
    rw [hcourse.shown_of_finished rfl hdistinct hdone hchecked.not_owed hundone hd,
      Workspace.pass, hcourse.follows.2]

/-- A system with a parser that it does not start. -/
def brokenParser : Host := ⟨[("p", ⟨fun _ => .refused "no"⟩)], none, none, .ok⟩

/-- The parser is taken out of the configuration while a pass with it is under way, which comes to
    its turn last. As its findings are shown in the end, the change was undone. -/
theorem configuration_undone_by_overtaken_pass :
    ∃ log σ, Course brokenParser ClearsFirst
        (.ofRequests (.ofConfig ⟨some "p", 10⟩)
          [.openDocument (.ofText "a" "nsql" 1 []), .configure .default, .revalidateAll]) log σ ∧
      σ.Finished ∧ Rechecked log ∧ Undone "a" log ∧
      Overtaken brokenParser (.ofRequests (.ofConfig ⟨some "p", 10⟩)
        [.openDocument (.ofText "a" "nsql" 1 []), .configure .default, .revalidateAll])
        "a" log := by
  obtain ⟨log, σ, hcourse, hdone, hchecked, hd, hshown⟩ :=
    exists_course_of_follow brokenParser ClearsFirst
      (.ofRequests (.ofConfig ⟨some "p", 10⟩)
        [.openDocument (.ofText "a" "nsql" 1 []), .configure .default, .revalidateAll])
      (fun log σ => σ.Finished ∧ Rechecked log ∧
        σ.document? "a" = some (.ofText "a" "nsql" 1 []) ∧
        σ.shown? "a" ≠ some (.ofDocument (.ofText "a" "nsql" 1 [])
          ((Engine.ofConfig σ.shared.workspace.config).check brokenParser [])))
      [0, 0, 0, 0, 1, 2, 2, 2, 2, 2, 2, 2, 0, 0, 0] (by decide +kernel)
  obtain ⟨hiff, hall⟩ := configuration_prevails_unless_undone brokenParser ⟨some "p", 10⟩
    [.openDocument (.ofText "a" "nsql" 1 []), .configure .default, .revalidateAll] log σ
    (by decide) hcourse hdone hchecked
  have hundone : Undone "a" log := (hall "a" _ hd).resolve_right hshown
  exact ⟨log, σ, hcourse, hdone, hchecked, hundone, (hiff "a").mp hundone⟩

/-- The configuration is changed and all documents are checked with the new engine, while a pass
    with the old one is under way; when all is done, the client shows the findings of the old
    one. -/
theorem old_findings_outlive_the_configuration :
    ∃ log σ, Course brokenParser ClearsFirst
        (.ofRequests (.ofConfig ⟨some "p", 10⟩)
          [.openDocument (.ofText "a" "nsql" 1 []), .configure .default, .revalidateAll]) log σ ∧
      σ.Finished ∧ Rechecked log ∧ σ.shared.workspace.config = .default ∧
      σ.document? "a" = some (.ofText "a" "nsql" 1 []) ∧
      σ.shown? "a" = some (.ofDocument (.ofText "a" "nsql" 1 [])
        ((Engine.ofConfig ⟨some "p", 10⟩).check brokenParser [])) ∧
      σ.shown? "a" ≠ some (.ofDocument (.ofText "a" "nsql" 1 [])
        ((Engine.ofConfig .default).check brokenParser [])) :=
  exists_course_of_follow _ _ _ _ [0, 0, 0, 0, 1, 2, 2, 2, 2, 2, 2, 2, 0, 0, 0] (by decide +kernel)

end Nsql
