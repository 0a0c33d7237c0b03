/-
  File:      Nsql/Proofs/Workspace/Schedule.lean
  Subject:   Tasks on one processor: they give way only where they have to wait, and all of them
             come to their end.

  A task may have to wait before it begins, for the engine, for its turn and for the client. On one
  processor it goes on until then, so nobody else makes a step while it stands anywhere else
  (`Cooperative`).

  * `left_lt_of_move` -- every step of a task brings it nearer to its end, so the steps that a
    round allows it are enough to come to a place where it has to wait (`Run.rests_task`);
  * `Orderly.exists_ready` -- who has the turn can use it, so somebody can always make a step, at
    the latest when the clock has gone on;
  * **`course_of_run`** -- `Schedule.run` is a cooperative course of all tasks to their end.
-/
import Nsql.Proofs.Workspace.Turns
import Nsql.Workspace.Schedule

namespace Nsql

open Situation (Step)

/-! ## 1. Giving way -/

/-- Whether a task that stands here may have to wait, or has come to its end. -/
def Stage.givesWay : Stage → Bool
  | .readEngine _ _ | .snapshot _ _ _ | .ask _ _ _ _ | .askToClear _ _ => false
  | _ => true

/-- The promise that whoever makes no step now stands where it may have to wait. -/
def Cooperative (σ : Situation) (e : Event) (_ : Situation) : Prop :=
  ∀ st ∈ σ.stages.eraseIdx e.task, st.givesWay = true

instance (σ : Situation) (e : Event) (σ' : Situation) : Decidable (Cooperative σ e σ') :=
  inferInstanceAs (Decidable (∀ _ ∈ σ.stages.eraseIdx e.task, _))

/-! ## 2. The way that is left -/

/-- The most steps that the rest of a check of all documents takes. -/
def Purpose.left : Purpose → Nat
  | .single => 0
  | .each rest _ => 6 * rest.length

/-- The most steps that a task has before it, if there are never more than `bound` documents. -/
def Stage.left (bound : Nat) : Stage → Nat
  | .begin _ => 7 + 6 * bound
  | .readEngine _ p => 6 + p.left
  | .snapshot _ _ p => 5 + p.left
  | .check _ _ p => 4 + p.left
  | .ask _ _ _ p => 3 + p.left
  | .compare _ _ _ p => 2 + p.left
  | .publish _ _ _ p => 1 + p.left
  | .askToClear _ _ => 3
  | .waitToClear _ _ => 2
  | .clear _ _ => 1
  | .finished _ => 0

@[simp] theorem Stage.left_next (bound : Nat) (rest : List String) (n : Nat) :
    (next rest n).left bound = 6 * rest.length := by
  cases rest with
  | nil => rfl
  | cons uri rest =>
    show 6 + 6 * rest.length = 6 * (rest.length + 1)
    omega

@[simp] theorem Stage.left_after (bound : Nat) (count : Option Nat) (p : Purpose) :
    (after count p).left bound = p.left := by
  cases p with
  | single => rfl
  | each rest n => exact left_next bound rest _

section Moves

variable {host : Host} {i : TaskId} {s s' : Shared} {st st' : Stage}

/-- **Every step brings a task nearer to its end.** -/
theorem left_lt_of_move {bound : Nat} (h : Move host i s st s' st')
    (hbound : ∀ q, st = .begin q → s.workspace.documents.length ≤ bound) :
    st'.left bound < st.left bound := by
  cases h with
  | revalidates uris horder =>
    have hlength : uris.length ≤ bound := by
      rw [horder.length_eq, Store.uris, List.length_map]
      exact hbound _ rfl
    rw [Stage.left_next, Stage.left]
    omega
  | misses | drops | publishes =>
    rw [Stage.left_after, Stage.left]
    omega
  | opens | changes | rejects | closes | validates | configures | reads | takes | checks | asks
  | accepts | asksToClear | comesToClear | clears =>
    simp only [Stage.left, Purpose.left]
    omega

/-- Who is the first in the line, if in it at all, can make a step unless at its end. -/
theorem step_isSome (hst : st.outcome? = none)
    (hturn : st.inLine = true → s.turns.head? = some i) : (st.step host i s).isSome = true := by
  cases st with
  | finished => cases hst
  | compare en d f p =>
    have hhas : s.hasTurn i = true := by simp [Shared.hasTurn, hturn rfl]
    rw [Stage.step, if_pos hhas]
    split <;> rfl
  | waitToClear uri known =>
    have hhas : s.hasTurn i = true := by simp [Shared.hasTurn, hturn rfl]
    rw [Stage.step, if_pos hhas]
    rfl
  | snapshot en uri p =>
    rw [Stage.step]
    split <;> rfl
  | begin | readEngine | check | ask | publish | askToClear | clear => rfl

end Moves

/-! ## 3. How many documents there can be -/

/-- Whether a task has not begun. -/
def Stage.isBegin : Stage → Bool
  | .begin _ => true
  | _ => false

theorem Store.length_insert_le (d : Document) (s : Store) :
    (insert d s).length ≤ s.length + 1 := by
  induction s with
  | nil => exact Nat.le_refl 1
  | cons e s ih =>
    rw [insert]
    split
    · exact Nat.le_succ _
    · exact Nat.succ_le_succ ih

/-- A task brings at most one document, when it begins. -/
theorem documents_length_of_move {host : Host} {i : TaskId} {s s' : Shared} {st st' : Stage}
    (h : Move host i s st s' st') :
    s'.workspace.documents.length ≤
      s.workspace.documents.length + if st.isBegin then 1 else 0 := by
  cases h with
  | opens d => exact Store.length_insert_le d _
  | changes uri version edits documents hup =>
    obtain ⟨_, d, -, -, -, rfl⟩ := Store.update_eq_ok hup
    exact Store.length_insert_le d _
  | closes uri => exact Nat.le_succ_of_le (Store.erase_sublist uri _).length_le
  | configures config =>
    refine Nat.le_succ_of_le ?_
    unfold Workspace.configure
    split <;> exact Nat.le_refl _
  | rejects | validates | revalidates => exact Nat.le_succ _
  | reads | misses | takes | checks | asks | accepts | drops | publishes | asksToClear
  | comesToClear | clears => exact Nat.le_refl _

/-- **There are never more documents than at first and tasks that have begun.** -/
theorem Course.documents_length {host : Host} {ok : Situation → Event → Situation → Prop}
    {w : Workspace} {requests : List Request} {log : List Event} {σ : Situation}
    (h : Course host ok (.ofRequests w requests) log σ) :
    σ.shared.workspace.documents.length + σ.stages.countP Stage.isBegin ≤
      w.documents.length + requests.length := by
  induction h with
  | start =>
    have hall : ((requests.map Stage.begin).countP Stage.isBegin) ≤ requests.length := by
      simpa using List.countP_le_length (l := requests.map Stage.begin)
    exact Nat.add_le_add_left hall _
  | @step log σ σ' e _ hs _ ih =>
    obtain ⟨hlt, hget⟩ := List.getElem?_eq_some_iff.mp hs.before
    have hafter : e.after.isBegin = false := by
      cases hst : e.after with
      | begin r => exact absurd hst (not_begin_of_move hs.move r)
      | readEngine | snapshot | check | ask | compare | publish | askToClear | waitToClear | clear
      | finished => rfl
    have hcount := List.countP_set (p := Stage.isBegin) (a := e.after) hlt
    rw [← hs.stages, hget, hafter] at hcount
    have hpos : (if e.before.isBegin then 1 else 0) ≤ σ.stages.countP Stage.isBegin := by
      split
      · rename_i hb
        exact List.countP_pos_iff.mpr ⟨e.before, List.mem_of_getElem? hs.before, hb⟩
      · exact Nat.zero_le _
    have hdocs := documents_length_of_move hs.move
    simp only [Bool.false_eq_true, if_false] at hcount
    omega

namespace Schedule

/-! ## 4. One task -/

/-- Whether what a task is about to do may take some time. -/
def takesTime : Stage → Bool
  | .check _ _ _ | .publish _ _ _ _ | .clear _ _ => true
  | _ => false

theorem givesWay_of_takesTime {st : Stage} (h : takesTime st = true) : st.givesWay = true := by
  cases st with
  | check | publish | clear => rfl
  | begin | readEngine | snapshot | ask | compare | askToClear | waitToClear | finished => cases h

/-- What may take some time can be done in whatever situation. -/
theorem step_isSome_of_takesTime {st : Stage} (h : takesTime st = true) (host : Host) (i : TaskId)
    (s : Shared) : (st.step host i s).isSome = true := by
  cases st with
  | check | publish | clear => rfl
  | begin | readEngine | snapshot | ask | compare | askToClear | waitToClear | finished => cases h

/-- Who cannot make a step stands where it may have to wait. -/
theorem givesWay_of_step_eq_none {host : Host} {i : TaskId} {s : Shared} {st : Stage}
    (h : st.step host i s = none) : st.givesWay = true := by
  cases st with
  | begin | check | compare | publish | waitToClear | clear | finished => rfl
  | readEngine | ask | askToClear => cases h
  | snapshot en uri p =>
    rw [Stage.step] at h
    split at h <;> cases h

namespace Run

variable {host : Host} {r : Run}

theorem takesTime_of_delay {st : Stage} {d : Nat} (h : r.delay host st = some d) :
    takesTime st = true := by
  cases st with
  | check | publish | clear => rfl
  | begin | readEngine | snapshot | ask | compare | askToClear | waitToClear | finished => cases h

/-- Tasks as a situation. -/
def situation (r : Run) (ts : List Task) : Situation := ⟨r.shared, ts.map Task.stage⟩

section Task

variable {pre post : List Task} {t : Task}

/-- A step of the task between `pre` and `post`. -/
theorem course_step {shared : Shared} {stage : Stage} (t' : Task) (ht' : t'.stage = stage)
    (hid : t.id = pre.length) (hothers : ∀ u ∈ pre ++ post, u.stage.givesWay = true)
    (h : t.stage.step host t.id r.shared = some (shared, stage)) :
    ∃ log, Course host Cooperative (r.situation (pre ++ t :: post)) log
      (situation { r with shared := shared } (pre ++ t' :: post)) := by
  subst ht'
  refine ⟨_, Course.start.step (e := ⟨t.id, t.stage, t'.stage⟩) ⟨?_, .step h, ?_⟩ ?_⟩
  · simp [situation, hid]
  · simp [situation, hid]
  · intro st hst
    have hrest : ((pre ++ t :: post).map Task.stage).eraseIdx t.id =
        (pre ++ post).map Task.stage := by
      simp [hid, List.eraseIdx_append_of_length_le]
    rw [situation, hrest] at hst
    obtain ⟨u, hu, rfl⟩ := List.mem_map.mp hst
    exact hothers u hu

/-- **A task makes its steps while all others stand still.** -/
theorem course_task (host : Host) (r : Run) (n : Nat) (hid : t.id = pre.length)
    (hothers : ∀ u ∈ pre ++ post, u.stage.givesWay = true) :
    (r.task host n t).2.id = t.id ∧ (r.task host n t).1.clock = r.clock ∧
      ∃ log, Course host Cooperative (r.situation (pre ++ t :: post)) log
        ((r.task host n t).1.situation (pre ++ (r.task host n t).2 :: post)) := by
  fun_induction Run.task host n r t with
  | case1 r t => exact ⟨rfl, rfl, [], .start⟩
  | case2 r t n hwake => exact ⟨rfl, rfl, [], .start⟩
  | case3 r t n hwake hnone => exact ⟨rfl, rfl, [], .start⟩
  | case4 n r t hwake shared stage hsome r' d hdelay =>
    exact ⟨rfl, rfl, course_step _ rfl hid hothers hsome⟩
  | case5 n r t hwake shared stage hsome r' hdelay ih =>
    obtain ⟨hid', hclock, log, hlog⟩ := ih hid
    obtain ⟨log₁, hlog₁⟩ := course_step ⟨t.id, stage, r.clock⟩ rfl hid hothers hsome
    exact ⟨hid', hclock, log₁ ++ log, hlog₁.trans hlog⟩

/-- The way that is left after a step, and that from then on no more document comes of it. -/
theorem left_lt_of_step {bound : Nat} {shared : Shared} {stage : Stage}
    (hbound : ∀ q, t.stage = .begin q → r.shared.workspace.documents.length ≤ bound)
    (h : t.stage.step host t.id r.shared = some (shared, stage)) :
    stage.left bound < t.stage.left bound ∧ ∀ q, stage ≠ .begin q := by
  have hmove := move_of_step h
  exact ⟨left_lt_of_move hmove hbound, not_begin_of_move hmove⟩

theorem left_task_le (n : Nat) {bound : Nat}
    (hbound : ∀ q, t.stage = .begin q → r.shared.workspace.documents.length ≤ bound) :
    (r.task host n t).2.stage.left bound ≤ t.stage.left bound := by
  fun_induction Run.task host n r t with
  | case1 | case2 | case3 => exact Nat.le_refl _
  | case4 n r t hwake shared stage hsome r' d hdelay =>
    exact Nat.le_of_lt (left_lt_of_step hbound hsome).1
  | case5 n r t hwake shared stage hsome r' hdelay ih =>
    obtain ⟨hlt, hbegin⟩ := left_lt_of_step hbound hsome
    exact Nat.le_trans (ih fun q hq => absurd hq (hbegin q)) (Nat.le_of_lt hlt)

/-- **What a task comes to**: it cannot make a step now, or it has come nearer to its end. -/
theorem task_cases (host : Host) (n : Nat) {bound : Nat}
    (hbound : ∀ q, t.stage = .begin q → r.shared.workspace.documents.length ≤ bound) :
    (r.task host (n + 1) t = (r, t) ∧ r.isReady host t = false) ∨
      (r.task host (n + 1) t).2.stage.left bound < t.stage.left bound := by
  rw [Run.task]
  split
  · rename_i hwake
    exact .inl ⟨rfl, by simp [isReady, Nat.not_le.mpr hwake]⟩
  · split
    · rename_i hnone
      exact .inl ⟨rfl, by simp [isReady, hnone]⟩
    · rename_i shared stage hsome
      obtain ⟨hlt, hbegin⟩ := left_lt_of_step hbound hsome
      dsimp only
      split
      · exact .inr hlt
      · refine .inr (Nat.lt_of_le_of_lt (left_task_le n fun q hq => ?_) hlt)
        exact absurd hq (hbegin q)

/-- A task that rests stands where it may have to wait, and what it waits some time for can be
    done by then. -/
structure Rests (bound : Nat) (r : Run) (t : Task) : Prop where
  givesWay : t.stage.givesWay = true
  asleep : r.clock < t.wake → takesTime t.stage = true
  left_le : t.stage.left bound ≤ 7 + 6 * bound

/-- **With enough steps a task goes on until it rests.** -/
theorem rests_task (host : Host) (n : Nat) {bound : Nat} (hn : t.stage.left bound < n)
    (hle : t.stage.left bound ≤ 7 + 6 * bound)
    (hasleep : r.clock < t.wake → takesTime t.stage = true)
    (hbound : ∀ q, t.stage = .begin q → r.shared.workspace.documents.length ≤ bound) :
    (r.task host n t).1.Rests bound (r.task host n t).2 := by
  fun_induction Run.task host n r t with
  | case1 => exact absurd hn (Nat.not_lt_zero _)
  | case2 n r t hwake => exact ⟨givesWay_of_takesTime (hasleep hwake), hasleep, hle⟩
  | case3 n r t hwake hnone => exact ⟨givesWay_of_step_eq_none hnone, hasleep, hle⟩
  | case4 n r t hwake shared stage hsome r' d hdelay =>
    have htime : takesTime stage = true := takesTime_of_delay hdelay
    have hlt := (left_lt_of_step hbound hsome).1
    exact ⟨givesWay_of_takesTime htime, fun _ => htime, Nat.le_trans (Nat.le_of_lt hlt) hle⟩
  | case5 n r t hwake shared stage hsome r' hdelay ih =>
    obtain ⟨hlt, hbegin⟩ := left_lt_of_step hbound hsome
    refine ih ?_ (Nat.le_trans (Nat.le_of_lt hlt) hle)
      (fun hclock => absurd hclock (Nat.lt_irrefl _)) fun q hq => absurd hq (hbegin q)
    show stage.left bound < n
    omega

end Task

theorem clock_le_nextClock (r : Run) (ts : List Task) : r.clock ≤ r.nextClock ts := by
  rw [nextClock]
  cases hm : ((ts.map Task.wake).filter fun k => r.clock < k).min? with
  | none => exact Nat.le_refl _
  | some m => exact Nat.le_of_lt (of_decide_eq_true (List.mem_filter.mp (List.min?_mem hm)).2)

end Run

/-! ## 5. Rounds -/

open Run (Rests)

/-- **Between two tasks of a round**: the tasks have come here by a cooperative course, and all of
    them rest. -/
structure Orderly (host : Host) (w : Workspace) (requests : List Request) (r : Run)
    (ts : List Task) : Prop where
  ids : ts.map Task.id = List.range ts.length
  course : ∃ log, Course host Cooperative (.ofRequests w requests) log (r.situation ts)
  rests : ∀ t ∈ ts, Rests (w.documents.length + requests.length) r t

/-- The most steps that some tasks have before them. -/
def left (bound : Nat) : List Task → Nat
  | [] => 0
  | t :: ts => t.stage.left bound + left bound ts

namespace Orderly

variable {host : Host} {w : Workspace} {requests : List Request} {r : Run} {ts : List Task}

/-- There are never more documents than the tasks reckon with. -/
theorem documents_length (h : Orderly host w requests r ts) :
    r.shared.workspace.documents.length ≤ w.documents.length + requests.length := by
  obtain ⟨log, hcourse⟩ := h.course
  exact Nat.le_trans (Nat.le_add_right _ _) hcourse.documents_length

theorem id_eq (h : Orderly host w requests r ts) {i : TaskId} {t : Task} (hi : ts[i]? = some t) :
    t.id = i := by
  have hids := congrArg (fun l => l[i]?) h.ids
  simp only [List.getElem?_map, hi] at hids
  obtain ⟨hlt, -⟩ := List.getElem?_eq_some_iff.mp hi
  rw [List.getElem?_range hlt] at hids
  exact Option.some.inj hids

/-- The clock may go on. -/
theorem tick (h : Orderly host w requests r ts) {clock : Nat} (hclock : r.clock ≤ clock) :
    Orderly host w requests { r with clock := clock } ts where
  ids := h.ids
  course := h.course
  rests t ht :=
    let hrests := h.rests t ht
    ⟨hrests.givesWay, fun hwake => hrests.asleep (Nat.lt_of_le_of_lt hclock hwake), hrests.left_le⟩

/-- **One task of a round.** -/
theorem task {pre post : List Task} {t : Task} {n : Nat}
    (h : Orderly host w requests r (pre ++ t :: post))
    (hn : 7 + 6 * (w.documents.length + requests.length) < n) :
    (r.task host n t).1.clock = r.clock ∧
      Orderly host w requests (r.task host n t).1 (pre ++ (r.task host n t).2 :: post) := by
  have hid : t.id = pre.length := h.id_eq (by simp)
  have hothers : ∀ u ∈ pre ++ post, u ∈ pre ++ t :: post := by
    intro u hu
    rw [List.mem_append, List.mem_cons]
    rcases List.mem_append.mp hu with hu | hu
    · exact .inl hu
    · exact .inr (.inr hu)
  obtain ⟨hid', hclock, log, hlog⟩ :=
    Run.course_task host r n hid fun u hu => (h.rests u (hothers u hu)).givesWay
  obtain ⟨log₀, hlog₀⟩ := h.course
  have ht := h.rests t (by simp)
  have ht' := Run.rests_task host n (Nat.lt_of_le_of_lt ht.left_le hn) ht.left_le ht.asleep
    fun _ _ => h.documents_length
  refine ⟨hclock, ?_, ⟨log₀ ++ log, hlog₀.trans hlog⟩, fun u hu => ?_⟩
  · have hids := h.ids
    simp only [List.map_append, List.map_cons, List.length_append, List.length_cons, hid'] at hids ⊢
    exact hids
  · by_cases hut : u = (r.task host n t).2
    · rw [hut]
      exact ht'
    · have hu : u ∈ pre ++ post := by
        rw [List.mem_append, List.mem_cons] at hu
        rw [List.mem_append]
        exact hu.imp_right fun hu => hu.resolve_left hut
      have hrests := h.rests u (hothers u hu)
      exact ⟨hrests.givesWay, hclock ▸ hrests.asleep, hrests.left_le⟩

/-- **A whole round**: nobody could make a step, or the tasks have come nearer to their end. -/
theorem round {n : Nat} (hn : 7 + 6 * (w.documents.length + requests.length) < n)
    (pre : List Task) (h : Orderly host w requests r (pre ++ ts)) :
    (r.round host n ts).1.clock = r.clock ∧
      Orderly host w requests (r.round host n ts).1 (pre ++ (r.round host n ts).2) ∧
      ((r.round host n ts = (r, ts) ∧ ∀ t ∈ ts, r.isReady host t = false) ∨
        left (w.documents.length + requests.length) (r.round host n ts).2 <
          left (w.documents.length + requests.length) ts) := by
  induction ts generalizing pre r with
  | nil => exact ⟨rfl, h, .inl ⟨rfl, fun t ht => absurd ht List.not_mem_nil⟩⟩
  | cons t ts ih =>
    obtain ⟨m, rfl⟩ : ∃ m, n = m + 1 := Nat.exists_eq_add_one.mpr (Nat.zero_lt_of_lt hn)
    have hround : r.round host (m + 1) (t :: ts) =
        (((r.task host (m + 1) t).1.round host (m + 1) ts).1,
          (r.task host (m + 1) t).2 :: ((r.task host (m + 1) t).1.round host (m + 1) ts).2) := rfl
    obtain ⟨hclock, htask⟩ := h.task hn
    rw [List.append_cons] at htask
    obtain ⟨hclock', hrest, hcases⟩ := ih _ htask
    rw [← List.append_cons] at hrest
    rw [hround]
    refine ⟨hclock'.trans hclock, hrest, ?_⟩
    simp only [left]
    rcases Run.task_cases host m fun _ _ => h.documents_length with ⟨hsame, hready⟩ | hlt
    · rw [hsame] at hcases ⊢
      rcases hcases with ⟨hsame', hready'⟩ | hlt
      · refine .inl ⟨by rw [hsame'], fun u hu => ?_⟩
        rcases List.mem_cons.mp hu with rfl | hu
        · exact hready
        · exact hready' u hu
      · exact .inr (Nat.add_lt_add_left hlt _)
    · rcases hcases with ⟨hsame', -⟩ | hlt'
      · rw [hsame']
        exact .inr (Nat.add_lt_add_right hlt _)
      · exact .inr (Nat.add_lt_add hlt hlt')

/-! ## 6. Somebody can always make a step -/

/-- Who has not come to its end, or the one who has the turn, can do what it is about to do. -/
theorem exists_step (h : Orderly host w requests r ts) {t : Task} (ht : t ∈ ts)
    (hend : t.stage.outcome? = none) :
    ∃ u ∈ ts, (u.stage.step host u.id r.shared).isSome = true := by
  obtain ⟨log, hcourse⟩ := h.course
  have hq : Queue (r.situation ts) := .course hcourse
  cases hturns : r.shared.turns with
  | nil =>
    -- nobody is in the line, so the task has nobody to wait for
    refine ⟨t, ht, step_isSome hend fun hline => ?_⟩
    obtain ⟨i, hi⟩ := List.mem_iff_getElem?.mp ht
    have hmem : i ∈ r.shared.turns :=
      (hq.mem_iff i).mpr ⟨t.stage, by simp [Run.situation, hi], hline⟩
    rw [hturns] at hmem
    cases hmem
  | cons i rest =>
    obtain ⟨st, hi, hline⟩ := (hq.mem_iff i).mp (by
      show i ∈ r.shared.turns
      rw [hturns]
      exact List.mem_cons_self)
    simp only [Run.situation, List.getElem?_map, Option.map_eq_some_iff] at hi
    obtain ⟨u, hu, rfl⟩ := hi
    have hid : u.id = i := h.id_eq hu
    refine ⟨u, List.mem_of_getElem? hu, step_isSome ?_ fun _ => ?_⟩
    · cases hst : u.stage with
      | finished =>
        rw [hst] at hline
        cases hline
      | begin | readEngine | snapshot | check | ask | compare | publish | askToClear | waitToClear
      | clear => rfl
    · rw [hturns, hid]
      rfl

/-- When nobody can make a step now, somebody waits for time. -/
theorem exists_later (h : Orderly host w requests r ts) {t : Task} (ht : t ∈ ts)
    (hend : t.stage.outcome? = none) (hready : ts.any (r.isReady host) = false) :
    ∃ u ∈ ts, r.clock < u.wake ∧ r.nextClock ts = u.wake := by
  obtain ⟨v, hv, hstep⟩ := h.exists_step ht hend
  have hlater : r.clock < v.wake := by
    have hno : ¬ r.isReady host v = true := List.any_eq_false.mp hready v hv
    rw [Run.isReady, hstep, Bool.and_true, decide_eq_true_eq] at hno
    exact Nat.lt_of_not_le hno
  have hmem : v.wake ∈ (ts.map Task.wake).filter fun k => r.clock < k :=
    List.mem_filter.mpr ⟨List.mem_map_of_mem hv, decide_eq_true hlater⟩
  obtain ⟨m, hm⟩ := Option.isSome_iff_exists.mp (List.isSome_min?_of_mem hmem)
  obtain ⟨hwakes, hclock⟩ := List.mem_filter.mp (List.min?_mem hm)
  obtain ⟨u, hu, rfl⟩ := List.mem_map.mp hwakes
  refine ⟨u, hu, of_decide_eq_true hclock, ?_⟩
  rw [Run.nextClock, hm]
  rfl

/-- **Somebody can always make a step**, at the latest when the clock has gone on. -/
theorem exists_ready (h : Orderly host w requests r ts) {t : Task} (ht : t ∈ ts)
    (hend : t.stage.outcome? = none) (hready : ts.any (r.isReady host) = false) :
    ts.any (Run.isReady host { r with clock := r.nextClock ts }) = true := by
  obtain ⟨u, hu, hlater, hclock⟩ := h.exists_later ht hend hready
  have hstep := step_isSome_of_takesTime ((h.rests u hu).asleep hlater) host u.id r.shared
  refine List.any_eq_true.mpr ⟨u, hu, ?_⟩
  rw [Run.isReady, hstep, Bool.and_true, decide_eq_true_eq]
  exact Nat.le_of_eq hclock.symm

/-- **Rounds go on until all tasks have come to their end.** Every round in which somebody can
    make a step takes something from the way that is left, so there are enough rounds. -/
theorem rounds {n : Nat} (hn : 7 + 6 * (w.documents.length + requests.length) < n) (count : Nat)
    (h : Orderly host w requests r ts)
    (hready : (∀ t ∈ ts, t.stage.outcome?.isSome = true) ∨ ts.any (r.isReady host) = true)
    (hleft : left (w.documents.length + requests.length) ts < count) :
    Orderly host w requests (r.rounds host n count ts).1 (r.rounds host n count ts).2 ∧
      ∀ t ∈ (r.rounds host n count ts).2, t.stage.outcome?.isSome = true := by
  induction count generalizing r ts with
  | zero => exact absurd hleft (Nat.not_lt_zero _)
  | succ count ih =>
    rw [Run.rounds]
    by_cases hend : (ts.all fun t => t.stage.outcome?.isSome) = true
    · rw [if_pos hend]
      exact ⟨h, List.all_eq_true.mp hend⟩
    · rw [if_neg hend]
      have hany : ts.any (r.isReady host) = true :=
        hready.resolve_left fun hall => hend (List.all_eq_true.mpr hall)
      obtain ⟨u, hu, hur⟩ := List.any_eq_true.mp hany
      obtain ⟨-, hround, hcases⟩ := h.round hn []
      have hless : left (w.documents.length + requests.length) (r.round host n ts).2 < count := by
        rcases hcases with ⟨-, hno⟩ | hlt
        · exact absurd (hur.symm.trans (hno u hu)) (by decide)
        · omega
      rcases hr : r.round host n ts with ⟨r', ts'⟩
      rw [hr] at hround hless
      dsimp only [List.nil_append] at hround hless ⊢
      by_cases hany' : ts'.any (r'.isReady host) = true
      · rw [if_pos hany']
        exact ih hround (.inr hany') hless
      · rw [if_neg hany']
        refine ih (hround.tick (r'.clock_le_nextClock ts')) ?_ hless
        refine Classical.or_iff_not_imp_left.mpr fun hend' => ?_
        push Not at hend'
        obtain ⟨t, ht, hout⟩ := hend'
        exact hround.exists_ready ht (Option.not_isSome_iff_eq_none.mp hout)
          (Bool.eq_false_iff.mpr hany')

/-- Before the first round. -/
theorem start (host : Host) (w : Workspace) (requests : List Request) (slowStart : Option Nat) :
    Orderly host w requests ⟨.ofWorkspace w, 0, slowStart⟩
      (requests.zipIdx.map fun p => ⟨p.2, .begin p.1, 0⟩) where
  ids := by
    simp [Function.comp_def, List.zipIdx_map_snd, List.range_eq_range']
  course := by
    refine ⟨[], ?_⟩
    have hstages : ((requests.zipIdx.map fun p => (⟨p.2, .begin p.1, 0⟩ : Task)).map Task.stage) =
        requests.map Stage.begin := by
      rw [List.map_map]
      show requests.zipIdx.map (Stage.begin ∘ Prod.fst) = requests.map Stage.begin
      rw [← List.map_map, List.zipIdx_map_fst]
    rw [Run.situation, hstages]
    exact .start
  rests t ht := by
    obtain ⟨p, -, rfl⟩ := List.mem_map.mp ht
    exact ⟨rfl, fun h => absurd h (Nat.lt_irrefl 0), Nat.le_refl _⟩

end Orderly

/-- Before the first round all tasks have their whole way before them. -/
theorem left_begin (bound : Nat) (ps : List (Request × Nat)) :
    left bound (ps.map fun p => ⟨p.2, .begin p.1, 0⟩) = ps.length * (7 + 6 * bound) := by
  induction ps with
  | nil => exact (Nat.zero_mul _).symm
  | cons p ps ih =>
    rw [List.map_cons, left, ih]
    show 7 + 6 * bound + ps.length * (7 + 6 * bound) = (ps.length + 1) * (7 + 6 * bound)
    rw [Nat.succ_mul ps.length, Nat.add_comm]

/-- **Requests that are dealt with on one processor**: a cooperative course of their tasks, in
    which all of them come to their end. -/
theorem course_of_run (host : Host) (w : Workspace) (slowStart : Option Nat)
    (requests : List Request) :
    ∃ log σ, Course host Cooperative (.ofRequests w requests) log σ ∧ σ.Finished ∧
      σ.shared.workspace = (run host w slowStart requests).workspace ∧
      σ.shared.published = (run host w slowStart requests).published ∧
      σ.stages.map Stage.outcome? = (run host w slowStart requests).outcomes := by
  have hsteps : 7 + 6 * (w.documents.length + requests.length) <
      8 * (1 + w.documents.length + requests.length + 1) := by omega
  have hstart := Orderly.start host w requests slowStart
  have hready : (∀ t ∈ requests.zipIdx.map fun p => (⟨p.2, .begin p.1, 0⟩ : Task),
        t.stage.outcome?.isSome = true) ∨
      (requests.zipIdx.map fun p => (⟨p.2, .begin p.1, 0⟩ : Task)).any
        (Run.isReady host ⟨.ofWorkspace w, 0, slowStart⟩) = true := by
    cases requests with
    | nil => exact .inl (by simp)
    | cons q requests => exact .inr (by simp [Run.isReady, Stage.step])
  have hleft : left (w.documents.length + requests.length)
      (requests.zipIdx.map fun p => ⟨p.2, .begin p.1, 0⟩) <
      8 * (1 + w.documents.length + requests.length + 1) * (requests.length + 1) := by
    rw [left_begin, List.length_zipIdx, Nat.mul_comm]
    exact Nat.mul_lt_mul_of_lt_of_le hsteps (Nat.le_succ _) (Nat.succ_pos _)
  obtain ⟨horderly, hend⟩ := hstart.rounds hsteps _ hready hleft
  obtain ⟨log, hcourse⟩ := horderly.course
  refine ⟨log, _, hcourse, fun st hst => ?_, rfl, rfl, ?_⟩
  · obtain ⟨t, ht, rfl⟩ := List.mem_map.mp hst
    exact hend t ht
  · exact List.map_map

end Schedule

end Nsql
