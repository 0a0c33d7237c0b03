/-
  File:      Nsql/Proofs/Workspace/Engines.lean
  Subject:   Which engine a pass has read, and what has happened since it was put in.

  The engine may be changed while passes are under way; a pass goes on with the one that it has
  read. `recent` is the part of a course behind the last change of the engine: a task that has
  read the engine there (`Fresh`) works with the engine of now (`ReadBy.fresh`).

  * `Owed` -- the last change of the engine has not been followed by a check of all documents;
  * `Undone` -- a pass that had read the engine before a change publishes behind a pass that had
    read it after the change.
-/
import Mathlib.Data.List.DropRight
import Nsql.Proofs.Workspace.Passes

namespace Nsql

open Situation (Step)

/-! ## 1. Events -/

namespace Event

/-- A task reads the engine. -/
def reads (e : Event) : Bool :=
  match e.before with
  | .readEngine _ _ => true
  | _ => false

/-- The configuration becomes another one. -/
def reconfigures (e : Event) : Bool := decide (e.after.outcome? = some (.configured true))

/-- A check of all documents begins. -/
def revalidates (e : Event) : Bool :=
  match e.before with
  | .begin .revalidateAll => true
  | _ => false

/-- A pass publishes its findings about a URI. -/
def publishes (uri : String) (e : Event) : Bool := e.before.publishes uri

theorem reconfigures_iff {e : Event} :
    e.reconfigures = true ↔ e.after = .finished (.configured true) := by
  rw [reconfigures, decide_eq_true_eq]
  cases e.after <;> simp [Stage.outcome?]

theorem revalidates_iff {e : Event} : e.revalidates = true ↔ e.before = .begin .revalidateAll := by
  unfold revalidates
  split
  · rename_i hbefore
    exact ⟨fun _ => hbefore, fun _ => rfl⟩
  · rename_i hother
    exact ⟨fun h => absurd h (by decide), fun h => absurd h hother⟩

end Event

/-- What has happened since the configuration last became another one. -/
def recent (log : List Event) : List Event := log.rtakeWhile fun e => !e.reconfigures

/-- A task has read the engine since then. -/
def Fresh (log : List Event) (i : TaskId) : Prop := ∃ z ∈ recent log, z.task = i ∧ z.reads = true

/-- The configuration has become another one and the documents have not been checked since. -/
def Owed (log : List Event) : Prop :=
  (∃ k ∈ log, k.reconfigures = true) ∧ ∀ z ∈ recent log, z.revalidates = false

/-- **A change of the configuration is undone**: behind the change `k`, a task reads the engine
    and publishes (`x`), and after that a task publishes (`y`) that has not read the engine since
    the change. -/
def Undone (uri : String) (log : List Event) : Prop :=
  ∃ a k b x c y r, log = a ++ k :: (b ++ x :: (c ++ y :: r)) ∧ k.reconfigures = true ∧
    x.publishes uri = true ∧ y.publishes uri = true ∧
    (∃ z ∈ b, z.task = x.task ∧ z.reads = true) ∧
    ∀ z ∈ b ++ x :: c, z.task = y.task → z.reads = false

section Logs

variable {log : List Event} {e : Event}

theorem recent_concat_of_reconfigures (h : e.reconfigures = true) : recent (log ++ [e]) = [] :=
  List.rtakeWhile_concat_neg _ _ _ (by simp [h])

theorem recent_concat (h : e.reconfigures = false) : recent (log ++ [e]) = recent log ++ [e] :=
  List.rtakeWhile_concat_pos _ _ _ (by simp [h])

/-- Unless nothing was ever reconfigured, the last change stands right before the recent part. -/
theorem recent_cases (log : List Event) : recent log = log ∨
    ∃ a k, log = a ++ k :: recent log ∧ k.reconfigures = true := by
  have hsplit : log.rdropWhile (fun e => !e.reconfigures) ++ recent log = log :=
    List.rdropWhile_append_rtakeWhile
  by_cases hnil : log.rdropWhile (fun e => !e.reconfigures) = []
  · rw [hnil] at hsplit
    exact .inl hsplit
  · refine .inr ⟨(log.rdropWhile fun e => !e.reconfigures).dropLast,
      (log.rdropWhile fun e => !e.reconfigures).getLast hnil, ?_, ?_⟩
    · rw [List.append_cons, List.dropLast_append_getLast]
      exact hsplit.symm
    · simpa using List.rdropWhile_last_not (fun e : Event => !e.reconfigures) log hnil

theorem Fresh.concat {i : TaskId} (h : Fresh log i) (he : e.reconfigures = false) :
    Fresh (log ++ [e]) i := by
  obtain ⟨z, hz, hi, hr⟩ := h
  refine ⟨z, ?_, hi, hr⟩
  rw [recent_concat he]
  exact List.mem_append_left _ hz

/-- Nobody but the task that reads the engine becomes fresh. -/
theorem Fresh.of_concat {i : TaskId} (h : Fresh (log ++ [e]) i)
    (hne : e.task ≠ i ∨ e.reads = false) : e.reconfigures = false ∧ Fresh log i := by
  obtain ⟨z, hz, hi, hr⟩ := h
  cases he : e.reconfigures with
  | true =>
    rw [recent_concat_of_reconfigures he] at hz
    exact absurd hz List.not_mem_nil
  | false =>
    refine ⟨rfl, z, ?_, hi, hr⟩
    rw [recent_concat he, List.mem_append, List.mem_singleton] at hz
    rcases hz with hz | rfl
    · exact hz
    · rcases hne with hne | hne
      · exact absurd hi hne
      · rw [hne] at hr
        cases hr

theorem fresh_of_reads (hr : e.reads = true) (he : e.reconfigures = false) :
    Fresh (log ++ [e]) e.task := by
  refine ⟨e, ?_, rfl, hr⟩
  rw [recent_concat he]
  exact List.mem_append_right _ List.mem_cons_self

theorem Owed.concat (h : Owed log) (he : e.reconfigures = false) (hv : e.revalidates = false) :
    Owed (log ++ [e]) := by
  obtain ⟨⟨k, hk, hkr⟩, hno⟩ := h
  refine ⟨⟨k, List.mem_append_left _ hk, hkr⟩, fun z hz => ?_⟩
  rw [recent_concat he, List.mem_append, List.mem_singleton] at hz
  rcases hz with hz | rfl
  · exact hno z hz
  · exact hv

theorem owed_of_reconfigures (he : e.reconfigures = true) : Owed (log ++ [e]) := by
  refine ⟨⟨e, List.mem_append_right _ List.mem_cons_self, he⟩, fun z hz => ?_⟩
  rw [recent_concat_of_reconfigures he] at hz
  exact absurd hz List.not_mem_nil

theorem Undone.concat {uri : String} (h : Undone uri log) : Undone uri (log ++ [e]) := by
  obtain ⟨a, k, b, x, c, y, r, rfl, h⟩ := h
  exact ⟨a, k, b, x, c, y, r ++ [e], by simp, h⟩

end Logs

/-! ## 2. The engine of a pass -/

/-- The engine that a pass has read. -/
def Stage.engine? : Stage → Option Engine
  | .snapshot en _ _ | .check en _ _ | .ask en _ _ _ | .compare en _ _ _ | .publish en _ _ _ =>
    some en
  | _ => none

@[simp] theorem Stage.engine?_next (rest : List String) (n : Nat) :
    (next rest n).engine? = none :=
  next_elim (motive := (engine? · = none)) (fun _ => rfl) (fun _ _ => rfl) rest n

@[simp] theorem Stage.engine?_after (count : Option Nat) (p : Purpose) :
    (after count p).engine? = none :=
  after_elim (motive := (engine? · = none)) (fun _ => rfl) (fun _ _ => rfl) count p

/-- A pass keeps its engine, or it has just read the engine of now. -/
theorem engine?_of_move {host : Host} {i : TaskId} {s s' : Shared} {st st' : Stage}
    (h : Move host i s st s' st') {en : Engine} (hst' : st'.engine? = some en) :
    st.engine? = some en ∨ ∃ uri p, st = .readEngine uri p ∧ en = s.workspace.engine := by
  cases h with
  | reads uri p =>
    cases hst'
    exact .inr ⟨uri, p, rfl, rfl⟩
  | takes | checks | asks | accepts => exact .inl hst'
  | revalidates => simp at hst'
  | misses | drops | publishes => simp at hst'
  | opens | changes | rejects | closes | validates | configures | asksToClear | comesToClear
  | clears => cases hst'

/-- **Who reads what**: whoever has an engine has read it, and who has read it since the last
    change has the engine of now. -/
structure ReadBy (log : List Event) (σ : Situation) : Prop where
  known : ∀ {i : TaskId} {st : Stage} {en : Engine}, σ.stages[i]? = some st →
    st.engine? = some en → ∃ z ∈ log, z.task = i ∧ z.reads = true
  fresh : ∀ {i : TaskId} {st : Stage} {en : Engine}, σ.stages[i]? = some st →
    st.engine? = some en → Fresh log i → en = σ.engine

section Readers

variable {host : Host} {log : List Event} {σ σ' : Situation} {e : Event}

/-- The engine stays unless the configuration becomes another one. -/
theorem Situation.Step.engine_eq (hs : Step host σ e σ') (he : e.reconfigures = false) :
    σ'.engine = σ.engine := by
  refine engine_of_move hs.move fun hafter => ?_
  rw [Event.reconfigures_iff.mpr hafter] at he
  cases he

/-- Only a task that was to set the configuration makes it another one. -/
theorem begin_of_configured {i : TaskId} {s s' : Shared} {st : Stage}
    (h : Move host i s st s' (.finished (.configured true))) :
    ∃ config, st = .begin (.configure config) := by
  generalize hst' : Stage.finished (.configured true) = st' at h
  cases h with
  | configures config => exact ⟨config, rfl⟩
  | revalidates uris => cases uris <;> simp [Stage.next] at hst'
  | misses en uri p | drops en d f p | publishes en d f p =>
    cases p with
    | single => simp [Stage.after] at hst'
    | each rest n => cases rest <;> simp [Stage.after, Stage.next] at hst'
  | opens | changes | rejects | closes | validates | reads | takes | checks | asks | accepts
  | asksToClear | comesToClear | clears => simp at hst'

/-- A task that reads the engine does not change it. -/
theorem Situation.Step.reconfigures_of_reads (hs : Step host σ e σ') (hr : e.reads = true) :
    e.reconfigures = false := by
  have hmove := hs.move
  unfold Event.reads at hr
  split at hr
  · rename_i uri p hbefore
    rw [hbefore] at hmove
    generalize hafter : e.after = st', σ'.shared = s' at hmove
    cases hmove with
    | reads => simp [Event.reconfigures, Stage.outcome?, hafter]
  · cases hr

namespace ReadBy

theorem ofRequests (w : Workspace) (requests : List Request) :
    ReadBy [] (.ofRequests w requests) where
  known {i st en} hi hst := by
    obtain ⟨r, rfl⟩ := Situation.begin_of_ofRequests hi
    cases hst
  fresh {i st en} hi hst := by
    obtain ⟨r, rfl⟩ := Situation.begin_of_ofRequests hi
    cases hst

theorem step (h : ReadBy log σ) (hs : Step host σ e σ') : ReadBy (log ++ [e]) σ' := by
  refine ⟨fun {i st en} hi hst => ?_, fun {i st en} hi hst hf => ?_⟩
  · rcases hs.stage_cases hi with ⟨rfl, rfl⟩ | ⟨-, hi⟩
    · rcases engine?_of_move hs.move hst with hb | ⟨uri, p, hb, -⟩
      · obtain ⟨z, hz, hzi⟩ := h.known hs.before hb
        exact ⟨z, List.mem_append_left _ hz, hzi⟩
      · exact ⟨e, List.mem_append_right _ List.mem_cons_self, rfl, by simp [Event.reads, hb]⟩
    · obtain ⟨z, hz, hzi⟩ := h.known hi hst
      exact ⟨z, List.mem_append_left _ hz, hzi⟩
  · rcases hs.stage_cases hi with ⟨rfl, rfl⟩ | ⟨hne, hi⟩
    · rcases engine?_of_move hs.move hst with hb | ⟨uri, p, hb, rfl⟩
      · have hr : e.reads = false := by
          unfold Event.reads
          split
          · rename_i uri p hbefore
            rw [hbefore] at hb
            cases hb
          · rfl
        obtain ⟨he, hf⟩ := hf.of_concat (.inr hr)
        rw [hs.engine_eq he]
        exact h.fresh hs.before hb hf
      · have he := hs.reconfigures_of_reads (by simp [Event.reads, hb])
        exact (hs.engine_eq he).symm
    · obtain ⟨he, hf⟩ := hf.of_concat (.inl (Ne.symm hne))
      rw [hs.engine_eq he]
      exact h.fresh hi hst hf

theorem course {ok : Situation → Event → Situation → Prop} {w : Workspace}
    {requests : List Request} (h : Course host ok (.ofRequests w requests) log σ) :
    ReadBy log σ := by
  induction h with
  | start => exact .ofRequests w requests
  | step _ hs _ ih => exact ih.step hs

end ReadBy

/-- Where nobody sets the configuration, it never becomes another one. -/
theorem Course.reconfigures_eq_false {ok : Situation → Event → Situation → Prop} {w : Workspace}
    {requests : List Request} (h : Course host ok (.ofRequests w requests) log σ)
    (hfixed : ∀ config, .configure config ∉ requests) {k : Event} (hk : k ∈ log) :
    k.reconfigures = false := by
  rw [← Bool.not_eq_true]
  intro hkr
  have hafter := Event.reconfigures_iff.mp hkr
  obtain ⟨a, b, rfl⟩ := List.append_of_mem hk
  obtain ⟨σ₁, σ₂, -, hs, -⟩ := h.at
  have hmove := hs.move
  rw [hafter] at hmove
  obtain ⟨config, hbefore⟩ := begin_of_configured hmove
  exact hfixed config (List.mem_of_getElem? (h.request_of_begin hk hbefore))

/-- Where the configuration never becomes another one, the engine is the one of the start. -/
theorem Course.engine_eq {ok : Situation → Event → Situation → Prop} {σ₀ : Situation}
    (h : Course host ok σ₀ log σ) (hno : ∀ k ∈ log, k.reconfigures = false) :
    σ.engine = σ₀.engine := by
  induction h with
  | start => rfl
  | step _ hs _ ih =>
    rw [hs.engine_eq (hno _ (by simp))]
    exact ih fun k hk => hno k (List.mem_append_left _ hk)

/-- Then every pass works with the engine of the start. -/
theorem Course.engine_of_pass {ok : Situation → Event → Situation → Prop} {w : Workspace}
    {requests : List Request} (h : Course host ok (.ofRequests w requests) log σ)
    (hno : ∀ k ∈ log, k.reconfigures = false) {i : TaskId} {st : Stage} {en : Engine}
    (hi : σ.stages[i]? = some st) (hst : st.engine? = some en) : en = w.engine := by
  have hr : ReadBy log σ := .course h
  have hfresh : Fresh log i := by
    rcases recent_cases log with hall | ⟨a, k, hlog, hk⟩
    · obtain ⟨z, hz, hzi⟩ := hr.known hi hst
      exact ⟨z, by rw [hall]; exact hz, hzi⟩
    · rw [hno k (by rw [hlog]; simp)] at hk
      cases hk
  rw [hr.fresh hi hst hfresh, h.engine_eq hno]
  rfl

end Readers

/-! ## 3. The engine of a configuration -/

namespace Workspace

/-- The engine is the one of the configuration, and stays so. -/
def Follows (w : Workspace) : Prop := w.followsConfig = true ∧ w.engine = .ofConfig w.config

theorem Follows.configure {w : Workspace} (h : w.Follows) (config : Config) :
    (w.configure config).1.Follows := by
  unfold Workspace.configure
  split
  · exact h
  · exact ⟨h.1, if_pos h.1⟩

end Workspace

end Nsql
