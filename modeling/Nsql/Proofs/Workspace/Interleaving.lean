/-
  File:      Nsql/Proofs/Workspace/Interleaving.lean
  Subject:   Tasks that run together, in any order of their steps.

  A situation is what the tasks share together with what each of them is about to do. In one step
  any one task that need not wait does what it is about to do (`Situation.Step`), and a course is
  any sequence of such steps (`Course`), with the events that took place. A check of all documents
  takes them in any order (`Stage.May`). A course may be held to a promise about every one of its
  steps (`ok`), such as the order of versions.

  * `Move` -- all that a step can do, one rule for each way out of each stage;
    `move_of_may` -- there is no other;
  * `Course.split` -- a course can be cut at any event;
  * `Course.request_of_begin`, `Course.begun` -- a task begins once, with the request it was given;
  * `course_of_follow` -- a course is computed from the names of the tasks that make the steps.
-/
import Mathlib.Data.List.Nodup
import Nsql.Workspace.Task

namespace Nsql

/-! ## 1. Situations and events -/

/-- Tasks that run together: what they share, and what each of them is about to do. The name of a
    task is its place in the list. -/
structure Situation where
  shared : Shared
  stages : List Stage

/-- Something that happened: a task did what it was about to do, and what it is to do next. -/
structure Event where
  task : TaskId
  before : Stage
  after : Stage

namespace Situation

/-- Nobody has made a step yet. -/
def ofRequests (w : Workspace) (requests : List Request) : Situation :=
  ⟨.ofWorkspace w, requests.map .begin⟩

/-- Who has not made a step is to begin. -/
theorem begin_of_ofRequests {w : Workspace} {requests : List Request} {i : TaskId} {st : Stage}
    (h : (ofRequests w requests).stages[i]? = some st) : ∃ r, st = .begin r := by
  obtain ⟨r, -, hr⟩ := List.mem_map.mp (List.mem_of_getElem? h)
  exact ⟨r, hr.symm⟩

/-- The document of a URI. -/
def document? (σ : Situation) (uri : String) : Option Document :=
  σ.shared.workspace.documents.get? uri

theorem document?_ofRequests {w : Workspace} (hw : w.documents = []) (requests : List Request)
    (uri : String) : (ofRequests w requests).document? uri = none := by
  simp [document?, ofRequests, Shared.ofWorkspace, hw]

/-- The engine that a pass would read now. -/
def engine (σ : Situation) : Engine := σ.shared.workspace.engine

/-- All tasks have come to their end. -/
def Finished (σ : Situation) : Prop := ∀ st ∈ σ.stages, st.outcome?.isSome = true

instance (σ : Situation) : Decidable σ.Finished := inferInstanceAs (Decidable (∀ _ ∈ _, _))

end Situation

/-- What a task may do: its step, but a check of all documents may take them in any order. -/
inductive Stage.May (host : Host) (i : TaskId) (s : Shared) : Stage → Shared → Stage → Prop where
  | step {st st' : Stage} {s' : Shared} (h : st.step host i s = some (s', st')) :
      May host i s st s' st'
  | inOrder {uris : List String} (h : uris.Perm s.workspace.documents.uris) :
      May host i s (.begin .revalidateAll) s (.next uris 0)

/-- One step of one task. -/
structure Situation.Step (host : Host) (σ : Situation) (e : Event) (σ' : Situation) : Prop where
  before : σ.stages[e.task]? = some e.before
  may : e.before.May host e.task σ.shared σ'.shared e.after
  stages : σ'.stages = σ.stages.set e.task e.after

open Situation (Step)

/-! ## 2. What a step can do -/

/-- **All that task `i` can do.** -/
inductive Move (host : Host) (i : TaskId) (s : Shared) : Stage → Shared → Stage → Prop where
  | opens (d : Document) :
      Move host i s (.begin (.openDocument d)) (s.withDocuments (s.workspace.documents.insert d))
        (.readEngine d.uri .single)
  | changes (uri : String) (version : Int) (edits : List Document.Edit) (documents : Store)
      (h : s.workspace.documents.update uri version edits = .ok documents) :
      Move host i s (.begin (.changeDocument uri version edits)) (s.withDocuments documents)
        (.readEngine uri .single)
  | rejects (uri : String) (version : Int) (edits : List Document.Edit) (err : Document.Error)
      (h : s.workspace.documents.update uri version edits = .error err) :
      Move host i s (.begin (.changeDocument uri version edits)) s (.finished (.rejected err))
  | closes (uri : String) :
      Move host i s (.begin (.closeDocument uri))
        (s.withDocuments (s.workspace.documents.erase uri))
        (.askToClear uri (s.workspace.documents.has uri))
  | validates (uri : String) : Move host i s (.begin (.validate uri)) s (.readEngine uri .single)
  | revalidates (uris : List String) (h : uris.Perm s.workspace.documents.uris) :
      Move host i s (.begin .revalidateAll) s (.next uris 0)
  | configures (config : Config) :
      Move host i s (.begin (.configure config))
        { s with workspace := (s.workspace.configure config).1 }
        (.finished (.configured (s.workspace.configure config).2))
  | reads (uri : String) (p : Purpose) :
      Move host i s (.readEngine uri p) s (.snapshot s.workspace.engine uri p)
  | misses (en : Engine) (uri : String) (p : Purpose)
      (h : s.workspace.documents.get? uri = none) :
      Move host i s (.snapshot en uri p) s (.after none p)
  | takes (en : Engine) (uri : String) (p : Purpose) (d : Document)
      (h : s.workspace.documents.get? uri = some d) :
      Move host i s (.snapshot en uri p) { s with checked := s.checked ++ [d.content] }
        (.check en d p)
  | checks (en : Engine) (d : Document) (p : Purpose) :
      Move host i s (.check en d p) s (.ask en d (en.check host d.content) p)
  | asks (en : Engine) (d : Document) (f : List Diagnostic) (p : Purpose) :
      Move host i s (.ask en d f p) (s.askTurn i) (.compare en d f p)
  | accepts (en : Engine) (d : Document) (f : List Diagnostic) (p : Purpose)
      (hturn : s.turns.head? = some i)
      (h : s.workspace.documents.version? d.uri = some d.version) :
      Move host i s (.compare en d f p) s (.publish en d f p)
  | drops (en : Engine) (d : Document) (f : List Diagnostic) (p : Purpose)
      (hturn : s.turns.head? = some i)
      (h : s.workspace.documents.version? d.uri ≠ some d.version) :
      Move host i s (.compare en d f p) s.endTurn (.after none p)
  | publishes (en : Engine) (d : Document) (f : List Diagnostic) (p : Purpose) :
      Move host i s (.publish en d f p) (s.send (.ofDocument d f)).endTurn
        (.after (some f.length) p)
  | asksToClear (uri : String) (known : Bool) :
      Move host i s (.askToClear uri known) (s.askTurn i) (.waitToClear uri known)
  | comesToClear (uri : String) (known : Bool) (hturn : s.turns.head? = some i) :
      Move host i s (.waitToClear uri known) s (.clear uri known)
  | clears (uri : String) (known : Bool) :
      Move host i s (.clear uri known) (s.send (.clearing uri)).endTurn (.finished (.closed known))

section Moves

variable {host : Host} {i : TaskId} {s s' : Shared} {st st' : Stage}

theorem move_of_start {r : Request} (h : r.start s = (s', st')) :
    Move host i s (.begin r) s' st' := by
  cases r with
  | openDocument d =>
    cases h
    exact .opens d
  | changeDocument uri version edits =>
    simp only [Request.start] at h
    split at h
    · rename_i documents hu
      cases h
      exact .changes uri version edits documents hu
    · rename_i err hu
      cases h
      exact .rejects uri version edits err hu
  | closeDocument uri =>
    cases h
    exact .closes uri
  | validate uri =>
    cases h
    exact .validates uri
  | revalidateAll =>
    cases h
    exact .revalidates _ (List.Perm.refl _)
  | configure config =>
    cases h
    exact .configures config

theorem move_of_step (h : st.step host i s = some (s', st')) : Move host i s st s' st' := by
  cases st with
  | begin r => exact move_of_start (Option.some.inj h)
  | readEngine uri p =>
    cases h
    exact .reads uri p
  | snapshot en uri p =>
    simp only [Stage.step] at h
    split at h
    · rename_i hd
      cases h
      exact .misses en uri p hd
    · rename_i d hd
      cases h
      exact .takes en uri p d hd
  | check en d p =>
    cases h
    exact .checks en d p
  | ask en d f p =>
    cases h
    exact .asks en d f p
  | compare en d f p =>
    simp only [Stage.step] at h
    split at h
    · rename_i hturn
      have hturn' : s.turns.head? = some i := by simpa [Shared.hasTurn] using hturn
      split at h
      · rename_i hv
        cases h
        exact .accepts en d f p hturn' hv
      · rename_i hv
        cases h
        exact .drops en d f p hturn' hv
    · cases h
  | publish en d f p =>
    cases h
    exact .publishes en d f p
  | askToClear uri known =>
    cases h
    exact .asksToClear uri known
  | waitToClear uri known =>
    simp only [Stage.step] at h
    split at h
    · rename_i hturn
      cases h
      exact .comesToClear uri known (by simpa [Shared.hasTurn] using hturn)
    · cases h
  | clear uri known =>
    cases h
    exact .clears uri known
  | finished o => cases h

/-- **There is nothing else that a task can do.** -/
theorem move_of_may (h : st.May host i s s' st') : Move host i s st s' st' := by
  cases h with
  | step h => exact move_of_step h
  | inOrder h => exact .revalidates _ h

theorem shared_of_revalidateAll (h : (Stage.begin .revalidateAll).May host i s s' st') :
    s' = s := by
  cases h with
  | step h => exact (Prod.mk.inj (Option.some.inj h)).1.symm
  | inOrder => rfl

/-- Only the order of a check of all documents is left open. -/
theorem may_unique {s'' : Shared} (h : st.May host i s s' st') (h' : st.May host i s s'' st') :
    s' = s'' := by
  by_cases hall : st = .begin .revalidateAll
  · subst hall
    rw [shared_of_revalidateAll h, shared_of_revalidateAll h']
  · cases h with
    | inOrder => exact absurd rfl hall
    | step h =>
      cases h' with
      | inOrder => exact absurd rfl hall
      | step h' => exact (Prod.mk.inj (Option.some.inj (h.symm.trans h'))).1

end Moves

/-! ## 3. One step, seen from each task -/

namespace Stage

/-- What holds of every end and of every beginning of a pass holds of what follows a pass. -/
theorem next_elim {motive : Stage → Prop} (finished : ∀ o, motive (.finished o))
    (readEngine : ∀ uri p, motive (.readEngine uri p)) (rest : List String) (n : Nat) :
    motive (next rest n) := by
  cases rest with
  | nil => exact finished _
  | cons uri rest => exact readEngine uri _

theorem after_elim {motive : Stage → Prop} (finished : ∀ o, motive (.finished o))
    (readEngine : ∀ uri p, motive (.readEngine uri p)) (count : Option Nat) (p : Purpose) :
    motive (after count p) := by
  cases p with
  | single => exact finished _
  | each rest n => exact next_elim finished readEngine _ _

end Stage

/-- A task begins only once. -/
theorem not_begin_of_move {host : Host} {i : TaskId} {s s' : Shared} {st st' : Stage}
    (h : Move host i s st s' st') (r : Request) : st' ≠ .begin r := by
  cases h with
  | revalidates => exact Stage.next_elim (motive := (· ≠ .begin r)) (by simp) (by simp) _ _
  | misses | drops | publishes =>
    exact Stage.after_elim (motive := (· ≠ .begin r)) (by simp) (by simp) _ _
  | opens | changes | rejects | closes | validates | configures | reads | takes | checks | asks
  | accepts | asksToClear | comesToClear | clears => simp

namespace Situation.Step

variable {host : Host} {σ σ' : Situation} {e : Event}

theorem move (h : Step host σ e σ') : Move host e.task σ.shared e.before σ'.shared e.after :=
  move_of_may h.may

/-- The task that made the step stands where the event says. -/
theorem after_eq (h : Step host σ e σ') : σ'.stages[e.task]? = some e.after := by
  have hlt : e.task < σ.stages.length := (List.getElem?_eq_some_iff.mp h.before).1
  rw [h.stages, List.getElem?_set_self hlt]

/-- All other tasks stand where they stood. -/
theorem other (h : Step host σ e σ') {j : TaskId} (hj : j ≠ e.task) :
    σ'.stages[j]? = σ.stages[j]? := by
  rw [h.stages, List.getElem?_set_ne (Ne.symm hj)]

/-- A task after a step is the one that made it, or it stood there before. -/
theorem stage_cases (h : Step host σ e σ') {j : TaskId} {st : Stage}
    (hj : σ'.stages[j]? = some st) :
    (j = e.task ∧ st = e.after) ∨ (j ≠ e.task ∧ σ.stages[j]? = some st) := by
  by_cases hje : j = e.task
  · subst hje
    rw [h.after_eq] at hj
    exact .inl ⟨rfl, (Option.some.inj hj).symm⟩
  · rw [h.other hje] at hj
    exact .inr ⟨hje, hj⟩

/-- What a task does tells what comes of it. -/
theorem unique {σ'' : Situation} (h : Step host σ e σ') (h' : Step host σ e σ'') : σ' = σ'' := by
  obtain ⟨shared', stages'⟩ := σ'
  obtain ⟨shared'', stages''⟩ := σ''
  obtain ⟨-, hmay, hstages⟩ := h
  obtain ⟨-, hmay', hstages'⟩ := h'
  obtain rfl : shared' = shared'' := may_unique hmay hmay'
  obtain rfl : stages' = stages'' := hstages.trans hstages'.symm
  rfl

end Situation.Step

/-! ## 4. Courses -/

/-- A course: steps of tasks, one after the other, each as promised by `ok`. -/
inductive Course (host : Host) (ok : Situation → Event → Situation → Prop) (σ₀ : Situation) :
    List Event → Situation → Prop where
  | start : Course host ok σ₀ [] σ₀
  | step {log : List Event} {σ σ' : Situation} {e : Event} (h : Course host ok σ₀ log σ)
      (hs : Step host σ e σ') (hok : ok σ e σ') : Course host ok σ₀ (log ++ [e]) σ'

/-- Nothing is promised: the steps come in any order. -/
def AnyOrder (_ : Situation) (_ : Event) (_ : Situation) : Prop := True

instance (σ : Situation) (e : Event) (σ' : Situation) : Decidable (AnyOrder σ e σ') :=
  inferInstanceAs (Decidable True)

section Courses

variable {host : Host} {ok : Situation → Event → Situation → Prop} {σ₀ σ : Situation}

theorem Course.trans {σ₁ : Situation} {a b : List Event} (ha : Course host ok σ₀ a σ₁)
    (hb : Course host ok σ₁ b σ) : Course host ok σ₀ (a ++ b) σ := by
  induction hb with
  | start => rwa [List.append_nil]
  | step _ hs hok ih =>
    rw [← List.append_assoc]
    exact ih.step hs hok

/-- **A course can be cut at any event.** -/
theorem Course.split {a b : List Event} (h : Course host ok σ₀ (a ++ b) σ) :
    ∃ σ₁, Course host ok σ₀ a σ₁ ∧ Course host ok σ₁ b σ := by
  generalize hlog : a ++ b = log at h
  induction h generalizing b with
  | start =>
    obtain ⟨rfl, rfl⟩ := List.append_eq_nil_iff.mp hlog
    exact ⟨σ₀, .start, .start⟩
  | @step log σ σ' e h hs hok ih =>
    rcases List.eq_nil_or_concat b with rfl | ⟨b, e', rfl⟩
    · rw [List.append_nil] at hlog
      subst hlog
      exact ⟨σ', h.step hs hok, .start⟩
    · rw [List.concat_eq_append, ← List.append_assoc] at hlog
      obtain ⟨hlog, he⟩ := List.append_inj' hlog rfl
      obtain ⟨σ₁, ha, hb⟩ := ih hlog
      cases he
      rw [List.concat_eq_append]
      exact ⟨σ₁, ha, hb.step hs hok⟩

theorem Course.eq_start (h : Course host ok σ₀ [] σ) : σ = σ₀ := by
  generalize hlog : ([] : List Event) = log at h
  cases h with
  | start => rfl
  | step => exact absurd hlog.symm (by simp)

/-- The last event of a course and what came before it. -/
theorem Course.last {e : Event} {log : List Event} (h : Course host ok σ₀ (log ++ [e]) σ) :
    ∃ σ₁, Course host ok σ₀ log σ₁ ∧ Step host σ₁ e σ ∧ ok σ₁ e σ := by
  generalize hlog : log ++ [e] = log' at h
  cases h with
  | start => exact absurd hlog (by simp)
  | step h hs hok =>
    obtain ⟨rfl, he⟩ := List.append_inj' hlog rfl
    cases he
    exact ⟨_, h, hs, hok⟩

/-- A course around one of its events. -/
theorem Course.at {a b : List Event} {e : Event} (h : Course host ok σ₀ (a ++ e :: b) σ) :
    ∃ σ₁ σ₂, Course host ok σ₀ a σ₁ ∧ Step host σ₁ e σ₂ ∧ ok σ₁ e σ₂ ∧ Course host ok σ₂ b σ := by
  rw [List.append_cons] at h
  obtain ⟨σ₂, ha, hb⟩ := h.split
  obtain ⟨σ₁, ha, hs, hok⟩ := ha.last
  exact ⟨σ₁, σ₂, ha, hs, hok, hb⟩

/-- What every move keeps of a stage holds of all tasks at any time. -/
theorem Course.forall_stage {log : List Event} {P : Stage → Prop} (h : Course host ok σ₀ log σ)
    (h0 : ∀ (i : TaskId) (st : Stage), σ₀.stages[i]? = some st → P st)
    (hmove : ∀ {i s st s' st'}, Move host i s st s' st' → P st → P st') :
    ∀ (i : TaskId) (st : Stage), σ.stages[i]? = some st → P st := by
  induction h with
  | start => exact h0
  | step _ hs _ ih =>
    intro i st hi
    rcases hs.stage_cases hi with ⟨-, rfl⟩ | ⟨-, hi⟩
    · exact hmove hs.move (ih _ _ hs.before)
    · exact ih i st hi

/-- A task stays where it is until it makes a step. -/
theorem Course.stays_or_moves {log : List Event} (h : Course host ok σ₀ log σ) {i : TaskId}
    {st : Stage} (hi : σ₀.stages[i]? = some st) :
    σ.stages[i]? = some st ∨
      ∃ a z b, log = a ++ z :: b ∧ z.task = i ∧ z.before = st ∧ ∀ y ∈ a, y.task ≠ i := by
  suffices hall : (σ.stages[i]? = some st ∧ ∀ y ∈ log, y.task ≠ i) ∨
      ∃ a z b, log = a ++ z :: b ∧ z.task = i ∧ z.before = st ∧ ∀ y ∈ a, y.task ≠ i from
    hall.imp_left And.left
  induction h with
  | start => exact .inl ⟨hi, fun y hy => absurd hy List.not_mem_nil⟩
  | @step log σ σ' e _ hs _ ih =>
    rcases ih with ⟨hst, hnot⟩ | ⟨a, z, b, rfl, hz⟩
    · by_cases hie : i = e.task
      · subst hie
        have hbefore : e.before = st := Option.some.inj (hs.before.symm.trans hst)
        exact .inr ⟨log, e, [], rfl, rfl, hbefore, hnot⟩
      · refine .inl ⟨by rw [hs.other hie, hst], fun y hy => ?_⟩
        rcases List.mem_append.mp hy with hy | hy
        · exact hnot y hy
        · rw [List.mem_singleton.mp hy]
          exact Ne.symm hie
    · exact .inr ⟨a, z, b ++ [e], by simp, hz⟩

/-- The events tell where a course leads. -/
theorem Course.unique {ok' : Situation → Event → Situation → Prop} {log : List Event}
    {σ' : Situation} (h : Course host ok σ₀ log σ) (h' : Course host ok' σ₀ log σ') : σ = σ' := by
  induction h generalizing σ' with
  | start => exact h'.eq_start.symm
  | step _ hs _ ih =>
    obtain ⟨σ₁, h₁, hs', -⟩ := h'.last
    obtain rfl := ih h₁
    exact hs.unique hs'

/-- A course keeps every promise that follows from its own. -/
theorem Course.mono {ok' : Situation → Event → Situation → Prop} {log : List Event}
    (h : Course host ok σ₀ log σ)
    (himp : ∀ {σ e σ'}, Step host σ e σ' → ok σ e σ' → ok' σ e σ') :
    Course host ok' σ₀ log σ := by
  induction h with
  | start => exact .start
  | step _ hs hok ih => exact ih.step hs (himp hs hok)

/-- A course keeps another promise too, or there is a step at which it breaks it. -/
theorem Course.keeps_or_breaks (ok' : Situation → Event → Situation → Prop) {log : List Event}
    (h : Course host ok σ₀ log σ) :
    Course host ok' σ₀ log σ ∨
      ∃ a e b σ₁ σ₂, log = a ++ e :: b ∧ Course host ok σ₀ a σ₁ ∧ Step host σ₁ e σ₂ ∧
        ¬ ok' σ₁ e σ₂ ∧ Course host ok σ₂ b σ := by
  induction h with
  | start => exact .inl .start
  | @step log σ σ' e h hs hok ih =>
    rcases ih with hkeeps | ⟨a, x, b, σ₁, σ₂, rfl, ha, hx, hbreak, hb⟩
    · by_cases hok' : ok' σ e σ'
      · exact .inl (hkeeps.step hs hok')
      · exact .inr ⟨log, e, [], σ, σ', rfl, h, hs, hok', .start⟩
    · exact .inr ⟨a, x, b ++ [e], σ₁, σ₂, by simp, ha, hx, hbreak, hb.step hs hok⟩

/-- A course is one of those of which nothing is promised. -/
theorem Course.anyOrder {log : List Event} (h : Course host ok σ₀ log σ) :
    Course host AnyOrder σ₀ log σ :=
  h.mono fun _ _ => trivial

/-- Who has not begun is still about to deal with the request that was given. -/
def Waiting (requests : List Request) (σ : Situation) : Prop :=
  ∀ {i : TaskId} {r : Request}, σ.stages[i]? = some (Stage.begin r) → requests[i]? = some r

section Requests

variable {w : Workspace} {requests : List Request} {log : List Event}

theorem Course.waiting (h : Course host ok (.ofRequests w requests) log σ) :
    Waiting requests σ := by
  induction h with
  | start =>
    intro i r hi
    simpa [Situation.ofRequests] using hi
  | step _ hs _ ih =>
    intro i r hi
    rcases hs.stage_cases hi with ⟨-, hafter⟩ | ⟨-, hi⟩
    · exact absurd hafter.symm (not_begin_of_move hs.move r)
    · exact ih hi

/-- Whoever has begun had been given that request. -/
theorem Course.request_of_begin (h : Course host ok (.ofRequests w requests) log σ) {z : Event}
    {r : Request} (hz : z ∈ log) (hr : z.before = .begin r) : requests[z.task]? = some r := by
  obtain ⟨a, b, rfl⟩ := List.append_of_mem hz
  obtain ⟨σ₁, σ₂, ha, hs, -⟩ := h.at
  refine ha.waiting ?_
  rw [hs.before, hr]

/-- A request has not begun, or its beginning is part of the course. -/
theorem Course.begun (h : Course host ok (.ofRequests w requests) log σ) {i : TaskId} {r : Request}
    (hi : requests[i]? = some r) :
    σ.stages[i]? = some (.begin r) ∨ ∃ z ∈ log, z.task = i ∧ z.before = .begin r := by
  have hstart : (Situation.ofRequests w requests).stages[i]? = some (.begin r) := by
    simp [Situation.ofRequests, hi]
  rcases h.stays_or_moves hstart with hst | ⟨a, z, b, rfl, hz, hzb, -⟩
  · exact .inl hst
  · exact .inr ⟨z, by simp, hz, hzb⟩

end Requests

end Courses

/-! ## 5. Courses that can be computed -/

/-- The course in which the named tasks make the steps, if they can and may. -/
def Situation.follow (host : Host) (ok : Situation → Event → Situation → Prop)
    [∀ σ e σ', Decidable (ok σ e σ')] : Situation → List TaskId → Option (List Event × Situation)
  | σ, [] => some ([], σ)
  | σ, i :: is =>
    match σ.stages[i]? with
    | none => none
    | some st =>
      match st.step host i σ.shared with
      | none => none
      | some (s, st') =>
        let e : Event := ⟨i, st, st'⟩
        let σ' : Situation := ⟨s, σ.stages.set i st'⟩
        if ok σ e σ' then (follow host ok σ' is).map fun r => (e :: r.1, r.2) else none

theorem course_of_follow {host : Host} {ok : Situation → Event → Situation → Prop}
    [∀ σ e σ', Decidable (ok σ e σ')] : ∀ {is : List TaskId} {σ : Situation}
    {r : List Event × Situation}, σ.follow host ok is = some r → Course host ok σ r.1 r.2
  | [], σ, r, h => by
    cases h
    exact .start
  | i :: is, σ, r, h => by
    unfold Situation.follow at h
    split at h
    · cases h
    · rename_i st hst
      split at h
      · cases h
      · rename_i s st' hstep
        dsimp only at h
        split at h
        · rename_i hok
          obtain ⟨r', hr', rfl⟩ := Option.map_eq_some_iff.mp h
          have hs : Step host σ ⟨i, st, st'⟩ ⟨s, σ.stages.set i st'⟩ := ⟨hst, .step hstep, rfl⟩
          exact Course.trans (Course.start.step hs hok) (course_of_follow hr')
        · cases h

/-- There is a course of which something holds that can be decided by computing it. -/
theorem exists_course_of_follow (host : Host) (ok : Situation → Event → Situation → Prop)
    [∀ σ e σ', Decidable (ok σ e σ')] (σ : Situation) (P : List Event → Situation → Prop)
    [∀ log σ', Decidable (P log σ')] (is : List TaskId)
    (h : ((σ.follow host ok is).any fun r => decide (P r.1 r.2)) = true) :
    ∃ log σ', Course host ok σ log σ' ∧ P log σ' := by
  cases hr : σ.follow host ok is with
  | none =>
    rw [hr] at h
    cases h
  | some r =>
    rw [hr] at h
    exact ⟨r.1, r.2, course_of_follow hr, of_decide_eq_true h⟩

end Nsql
