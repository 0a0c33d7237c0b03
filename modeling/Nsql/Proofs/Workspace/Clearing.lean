/-
  File:      Nsql/Proofs/Workspace/Clearing.lean
  Subject:   How the findings about a closed document are withdrawn.

  A task that closes a document removes it in one step, asks for a turn in another one, and
  withdraws the findings when its turn has come. Between the first two steps the document may be
  opened anew. Where that does not happen (`ClearsFirst`), whoever withdraws the findings about an
  open document stands in the line before all passes over it (`InOrder`). What becomes of the
  findings about a document that stays closed needs no such promise (`Course.withdrawn`). A client
  that opens no document again keeps it (`Course.clearsFirst`).
-/
import Nsql.Proofs.Workspace.Passes

namespace Nsql

open Situation (Step)

/-! ## 1. Who withdraws -/

namespace Stage

/-- Whether a task is on its way to withdraw the findings about a URI. -/
def clears (uri : String) : Stage → Bool
  | .askToClear u _ | .waitToClear u _ | .clear u _ => decide (u = uri)
  | _ => false

/-- Whether it has not even asked for its turn. -/
def asksToClear (uri : String) : Stage → Bool
  | .askToClear u _ => decide (u = uri)
  | _ => false

/-- The URI of the document that a task is about to open. -/
def opening? : Stage → Option String
  | .begin (.openDocument d) => some d.uri
  | _ => none

@[simp] theorem clears_next (uri : String) (rest : List String) (n : Nat) :
    (next rest n).clears uri = false :=
  next_elim (motive := (clears uri · = false)) (fun _ => rfl) (fun _ _ => rfl) rest n

@[simp] theorem clears_after (uri : String) (count : Option Nat) (p : Purpose) :
    (after count p).clears uri = false :=
  after_elim (motive := (clears uri · = false)) (fun _ => rfl) (fun _ _ => rfl) count p

theorem clears_of_asksToClear {uri : String} {st : Stage} (h : st.asksToClear uri = true) :
    st.clears uri = true := by
  cases st with
  | askToClear => exact h
  | begin | readEngine | snapshot | check | ask | compare | publish | waitToClear | clear
  | finished => cases h

/-- Who has asked for the turn stands in the line. -/
theorem inLine_of_clears {uri : String} {st : Stage} (h : st.clears uri = true)
    (hask : st.asksToClear uri = false) : st.inLine = true := by
  cases st with
  | askToClear => exact absurd (h.symm.trans hask) (by decide)
  | waitToClear | clear => rfl
  | begin | readEngine | snapshot | check | ask | compare | publish | finished => cases h

theorem snapshot?_of_clears {uri : String} {st : Stage} (h : st.clears uri = true) :
    st.snapshot? = none := by
  cases st with
  | askToClear | waitToClear | clear => rfl
  | begin | readEngine | snapshot | check | ask | compare | publish | finished => cases h

end Stage

section Moves

variable {host : Host} {i : TaskId} {s s' : Shared} {st st' : Stage} {uri : String}

/-- Nobody sets out to withdraw anything but a task that closes a document. -/
theorem clears_of_move (h : Move host i s st s' st') (hst' : st'.clears uri = true) :
    st = .begin (.closeDocument uri) ∨ st.clears uri = true := by
  cases h with
  | closes u =>
    obtain rfl : u = uri := of_decide_eq_true hst'
    exact .inl rfl
  | asksToClear | comesToClear => exact .inr hst'
  | revalidates => simp at hst'
  | misses | drops | publishes => simp at hst'
  | opens | changes | rejects | validates | configures | reads | takes | checks | asks | accepts
  | clears => cases hst'

/-- Who has not asked for a turn yet has just removed the document. -/
theorem asksToClear_of_move (h : Move host i s st s' st') (hst' : st'.asksToClear uri = true) :
    st = .begin (.closeDocument uri) := by
  cases h with
  | closes u =>
    obtain rfl : u = uri := of_decide_eq_true hst'
    rfl
  | revalidates => simpa using Stage.clears_of_asksToClear hst'
  | misses | drops | publishes => simpa using Stage.clears_of_asksToClear hst'
  | opens | changes | rejects | validates | configures | reads | takes | checks | asks | accepts
  | asksToClear | comesToClear | clears => cases hst'

/-- Who has set out goes on to the end. -/
theorem clears_goes_on (h : Move host i s st s' st') (hst : st.clears uri = true) :
    st'.clears uri = true ∨ ∃ known, st = .clear uri known := by
  cases h with
  | asksToClear | comesToClear => exact .inl hst
  | clears u known =>
    obtain rfl : u = uri := of_decide_eq_true hst
    exact .inr ⟨known, rfl⟩
  | opens | changes | rejects | closes | validates | revalidates | configures | reads | misses
  | takes | checks | asks | accepts | drops | publishes => cases hst

/-- How a task that withdraws comes to stand in the line. -/
theorem clears_inLine_of_move (h : Move host i s st s' st') (hst' : st'.clears uri = true)
    (hline : st'.inLine = true) :
    st.asksToClear uri = true ∨
      (st.clears uri = true ∧ st.inLine = true ∧ s'.turns = s.turns) := by
  cases h with
  | closes => cases hline
  | asksToClear => exact .inl hst'
  | comesToClear => exact .inr ⟨hst', rfl, rfl⟩
  | revalidates => simp at hst'
  | misses | drops | publishes => simp at hst'
  | opens | changes | rejects | validates | configures | reads | takes | checks | asks | accepts
  | clears => cases hst'

/-- How a pass comes to stand in the line. -/
theorem snapshot_inLine_of_move (h : Move host i s st s' st') {en : Engine} {d : Document}
    (hst' : st'.snapshot? = some (en, d)) (hline : st'.inLine = true) :
    st.snapshot? = some (en, d) ∧
      (s'.turns = s.turns ++ [i] ∨ (st.inLine = true ∧ s'.turns = s.turns)) := by
  cases h with
  | asks => exact ⟨hst', .inl rfl⟩
  | accepts => exact ⟨hst', .inr ⟨rfl, rfl⟩⟩
  | takes | checks => cases hline
  | revalidates => simp at hst'
  | misses | drops | publishes => simp at hst'
  | opens | changes | rejects | closes | validates | configures | reads | asksToClear
  | comesToClear | clears => cases hst'

end Moves

/-! ## 2. Before a document is opened anew -/

/-- The promise that no document is opened while a task that has removed it has not yet asked for
    its turn. -/
def ClearsFirst (σ : Situation) (e : Event) (_ : Situation) : Prop :=
  ∀ uri ∈ e.before.opening?, ∀ st ∈ σ.stages, st.asksToClear uri = false

instance (σ : Situation) (e : Event) (σ' : Situation) : Decidable (ClearsFirst σ e σ') :=
  inferInstanceAs (Decidable (∀ _ ∈ e.before.opening?, ∀ _ ∈ σ.stages, _))

/-- The same promise about the document of one URI. -/
def ClearsFirstFor (uri : String) (σ : Situation) (e : Event) (_ : Situation) : Prop :=
  e.before.opening? = some uri → ∀ st ∈ σ.stages, st.asksToClear uri = false

instance (uri : String) (σ : Situation) (e : Event) (σ' : Situation) :
    Decidable (ClearsFirstFor uri σ e σ') :=
  inferInstanceAs (Decidable (_ → ∀ _ ∈ σ.stages, _))

theorem ClearsFirst.for {σ σ' : Situation} {e : Event} (h : ClearsFirst σ e σ') (uri : String) :
    ClearsFirstFor uri σ e σ' :=
  fun hopen => h uri hopen

/-- **The line of an open document**: whoever withdraws its findings has asked for a turn, and
    before every pass over the document as it is now. -/
structure InOrder (uri : String) (σ : Situation) : Prop where
  asked : ∀ {d : Document} {i : TaskId} {st : Stage}, σ.document? uri = some d →
    σ.stages[i]? = some st → st.asksToClear uri = false
  sorted : ∀ {d : Document} {i j : TaskId} {st st' : Stage} {en : Engine},
    σ.document? uri = some d → σ.stages[i]? = some st → st.inLine = true →
    st.snapshot? = some (en, d) → σ.stages[j]? = some st' → st'.inLine = true →
    st'.clears uri = true → [j, i].Sublist σ.shared.turns

namespace InOrder

variable {host : Host} {requests : List Request} {σ σ' : Situation} {e : Event} {uri : String}

/-- When the turn of a pass has come, nobody is left who would withdraw its findings. -/
theorem clears_eq_false (h : InOrder uri σ) (hq : Queue σ) {d : Document} {i j : TaskId}
    {st st' : Stage} {en : Engine} (hd : σ.document? uri = some d)
    (hi : σ.stages[i]? = some st) (hst : st.snapshot? = some (en, d))
    (hhead : σ.shared.turns.head? = some i) (hline : st.inLine = true)
    (hj : σ.stages[j]? = some st') : st'.clears uri = false := by
  rw [← Bool.not_eq_true]
  intro hc
  have hsub := h.sorted hd hi hline hst hj (Stage.inLine_of_clears hc (h.asked hd hj)) hc
  have hnodup := hq.nodup
  obtain ⟨rest, hrest⟩ := List.head?_eq_some_iff.mp hhead
  rw [hrest] at hsub hnodup
  have hnot : i ∉ rest := (List.nodup_cons.mp hnodup).1
  cases hsub with
  | cons _ hsub => exact hnot (hsub.subset (by simp))
  | cons_cons _ hsub => exact hnot (hsub.subset (by simp))

theorem ofRequests {w : Workspace} (hw : w.documents = []) (requests : List Request) :
    InOrder uri (.ofRequests w requests) where
  asked {d i st} h := by
    rw [Situation.document?_ofRequests hw] at h
    cases h
  sorted {d i j st st' en} h := by
    rw [Situation.document?_ofRequests hw] at h
    cases h

/-- A step that leaves the document as it is keeps the line in order. -/
theorem step_of_same (h : InOrder uri σ) (hq : Queue σ) (hs : Step host σ e σ')
    (hsame : σ'.document? uri = σ.document? uri)
    (hclose : e.before ≠ .begin (.closeDocument uri)) : InOrder uri σ' := by
  refine ⟨fun {d i st} hd hi => ?_, fun {d i j st st' en} hd hi hline hst hj hline' hc => ?_⟩
  · rw [hsame] at hd
    rcases hs.stage_cases hi with ⟨-, rfl⟩ | ⟨-, hi⟩
    · rw [← Bool.not_eq_true]
      exact fun hask => hclose (asksToClear_of_move hs.move hask)
    · exact h.asked hd hi
  · rw [hsame] at hd
    rcases hs.stage_cases hi with ⟨rfl, rfl⟩ | ⟨hie, hi⟩
    · -- the pass itself makes the step: it comes to the line behind all others
      rcases hs.stage_cases hj with ⟨-, rfl⟩ | ⟨-, hj⟩
      · rw [Stage.snapshot?_of_clears hc] at hst
        cases hst
      · obtain ⟨hb, ht | ⟨hline, ht⟩⟩ := snapshot_inLine_of_move hs.move hst hline
        · rw [ht]
          have hmem : j ∈ σ.shared.turns := (hq.mem_iff j).mpr ⟨st', hj, hline'⟩
          exact List.Sublist.append (List.singleton_sublist.mpr hmem) (List.Sublist.refl [e.task])
        · rw [ht]
          exact h.sorted hd hs.before hline hb hj hline' hc
    · rcases hs.stage_cases hj with ⟨rfl, rfl⟩ | ⟨hje, hj⟩
      · rcases clears_inLine_of_move hs.move hc hline' with hask | ⟨hb, hline', ht⟩
        · rw [h.asked hd hs.before] at hask
          cases hask
        · rw [ht]
          exact h.sorted hd hi hline hst hs.before hline' hb
      · -- a third task makes the step: it leaves the line at most as its first
        have hsub := h.sorted hd hi hline hst hj hline' hc
        rcases turns_of_move hs.move fun hb => hq.first hs.before hb with
          ⟨ht, -⟩ | ⟨ht, -⟩ | ⟨ht, hhead, -⟩
        · rw [ht]
          exact hsub
        · rw [ht]
          exact hsub.trans (List.sublist_append_left _ _)
        · obtain ⟨rest, hrest⟩ := List.head?_eq_some_iff.mp hhead
          rw [ht, hrest, List.tail_cons]
          rw [hrest] at hsub
          cases hsub with
          | cons _ hsub => exact hsub
          | cons_cons _ hsub => exact absurd rfl hje

/-- **What a step keeps of it**, as long as documents are opened as promised. -/
theorem step (h : InOrder uri σ) (hq : Queue σ) (hst : Stamped requests σ)
    (hd : (requests.filterMap Request.stamp?).Nodup) (hwait : Waiting requests σ)
    (hs : Step host σ e σ') (hok : ClearsFirstFor uri σ e σ') : InOrder uri σ' := by
  rcases hs.document_cases uri with
    ⟨hsame, hclose⟩ | ⟨r, d, hbefore, hr, huri, hput, hafter, hnew⟩ | ⟨-, hgone, -⟩
  · exact h.step_of_same hq hs hsame hclose
  · refine ⟨fun {d' i st} _ hi => ?_, fun {d' i j st st' en} hget hi hline hsn => ?_⟩
    · rcases hs.stage_cases hi with ⟨-, rfl⟩ | ⟨-, hi⟩
      · rw [hafter]
        rfl
      · rcases hnew with rfl | hopen
        · refine hok ?_ st (List.mem_of_getElem? hi)
          rw [hbefore, ← huri]
          rfl
        · obtain ⟨d₀, hd₀⟩ := Option.isSome_iff_exists.mp hopen
          exact h.asked hd₀ hi
    · -- no pass has the version that has just come
      have hdd : d = d' := Option.some.inj (hput.symm.trans hget)
      subst hdd
      rcases hs.stage_cases hi with ⟨-, rfl⟩ | ⟨-, hi⟩
      · rw [hafter] at hline
        cases hline
      · have hbegin := hs.before
        rw [hbefore] at hbegin
        exact absurd ⟨huri, rfl⟩ ((hst.carried hi hsn).ne hd hbegin (hwait hbegin) hr)
  · refine ⟨fun {d i st} hget => ?_, fun {d i j st st' en} hget => ?_⟩
    · rw [hgone] at hget
      cases hget
    · rw [hgone] at hget
      cases hget

theorem course {w : Workspace} {log : List Event} (hw : w.documents = [])
    (hd : (requests.filterMap Request.stamp?).Nodup)
    (h : Course host (ClearsFirstFor uri) (.ofRequests w requests) log σ) : InOrder uri σ := by
  induction h with
  | start => exact .ofRequests hw requests
  | step h hs hok ih => exact ih.step (.course h) (.course hw hd h) hd h.waiting hs hok

end InOrder

/-! ## 3. Documents that stay closed -/

/-- Some task has begun to close the document of a URI. -/
def Closed (uri : String) (log : List Event) : Prop :=
  ∃ z ∈ log, z.before = .begin (.closeDocument uri)

/-- **The findings about a closed document** are on their way to be withdrawn, or they are and
    nobody is about to publish others. -/
def Withdrawn (uri : String) (σ : Situation) : Prop :=
  (∃ (i : TaskId) (st : Stage), σ.stages[i]? = some st ∧ st.clears uri = true) ∨
  (σ.shown? uri = some (.clearing uri) ∧
    ∀ (i : TaskId) (st : Stage), σ.stages[i]? = some st → st.publishes uri = false)

section Withdrawals

variable {host : Host} {log : List Event} {σ σ' : Situation} {e : Event} {uri : String}

theorem Closed.concat (h : Closed uri log) : Closed uri (log ++ [e]) := by
  obtain ⟨z, hz, hzc⟩ := h
  exact ⟨z, List.mem_append_left _ hz, hzc⟩

theorem Closed.of_concat (h : Closed uri (log ++ [e]))
    (he : e.before ≠ .begin (.closeDocument uri)) : Closed uri log := by
  obtain ⟨z, hz, hzc⟩ := h
  rcases List.mem_append.mp hz with hz | hz
  · exact ⟨z, hz, hzc⟩
  · rw [List.mem_singleton.mp hz] at hzc
    exact absurd hzc he

/-- When the findings are withdrawn nobody else has the turn. -/
theorem withdrawn_of_clear (hq : Queue σ) (hs : Step host σ e σ') {known : Bool}
    (hbefore : e.before = .clear uri known) : Withdrawn uri σ' := by
  refine .inr ⟨?_, fun j st hj => ?_⟩
  · rcases hs.shown_cases uri with ⟨-, -, hne⟩ | ⟨en, d, f, p, hb, -⟩ | ⟨-, -, hshown⟩
    · exact absurd hbefore (hne known)
    · rw [hbefore] at hb
      cases hb
    · exact hshown
  · rw [← Bool.not_eq_true]
    intro hp
    rcases hs.stage_cases hj with ⟨-, rfl⟩ | ⟨hje, hj⟩
    · obtain ⟨en, d, f, p, hb, -⟩ := publishes_of_move hs.move hp
      rw [hbefore] at hb
      cases hb
    · have hsends : e.before.sends = true := by
        rw [hbefore]
        rfl
      exact hje (hq.eq_of_sends hj hs.before (Stage.sends_of_publishes hp) hsends)

/-- **What a step keeps of it** while the document is closed. -/
theorem Withdrawn.step (h : Withdrawn uri σ) (hq : Queue σ) (hs : Step host σ e σ')
    (hgone : σ.document? uri = none) : Withdrawn uri σ' := by
  rcases h with ⟨i, st, hi, hc⟩ | ⟨hshown, hpub⟩
  · by_cases hie : i = e.task
    · subst hie
      obtain rfl : e.before = st := Option.some.inj (hs.before.symm.trans hi)
      rcases clears_goes_on hs.move hc with hc' | ⟨known, hbefore⟩
      · exact .inl ⟨_, _, hs.after_eq, hc'⟩
      · exact withdrawn_of_clear hq hs hbefore
    · exact .inl ⟨i, st, by rw [hs.other hie, hi], hc⟩
  · refine .inr ⟨?_, fun j st hj => ?_⟩
    · rcases hs.shown_cases uri with ⟨hsame, -⟩ | ⟨en, d, f, p, hb, hu, -⟩ | ⟨-, -, hclear⟩
      · rw [hsame, hshown]
      · have hno := hpub _ _ hs.before
        simp [hb, Stage.publishes, hu] at hno
      · exact hclear
    · rcases hs.stage_cases hj with ⟨-, rfl⟩ | ⟨-, hj⟩
      · rw [← Bool.not_eq_true]
        intro hp
        obtain ⟨en, d, f, p, -, -, -, hv⟩ := publishes_of_move hs.move hp
        have hnone : σ.shared.workspace.documents.get? uri = none := hgone
        rw [Store.version?, hnone] at hv
        cases hv
      · exact hpub j st hj

/-- **What becomes of the findings about a closed document**, in any order of the steps. -/
theorem Course.withdrawn {ok : Situation → Event → Situation → Prop} {w : Workspace}
    {requests : List Request} (h : Course host ok (.ofRequests w requests) log σ)
    (hgone : σ.document? uri = none) (hclosed : Closed uri log) : Withdrawn uri σ := by
  induction h with
  | start =>
    obtain ⟨z, hz, -⟩ := hclosed
    cases hz
  | @step log σ σ' e h hs _ ih =>
    rcases hs.document_cases uri with
      ⟨hsame, hclose⟩ | ⟨r, d, -, -, -, hput, -⟩ | ⟨-, -, known, hafter⟩
    · have hgone' : σ.document? uri = none := by rw [← hsame, hgone]
      exact (ih hgone' (hclosed.of_concat hclose)).step (.course h) hs hgone'
    · rw [hput] at hgone
      cases hgone
    · refine .inl ⟨e.task, e.after, hs.after_eq, ?_⟩
      rw [hafter]
      simp [Stage.clears]

/-! ## 4. Documents that are not opened after they were closed -/

variable {ok : Situation → Event → Situation → Prop} {w : Workspace} {requests : List Request}

/-- Whoever is on the way to withdraw findings has begun to close the document. -/
theorem Course.began_of_clears (h : Course host ok (.ofRequests w requests) log σ) {i : TaskId}
    {st : Stage} (hi : σ.stages[i]? = some st) (hst : st.clears uri = true) :
    ∃ z ∈ log, z.task = i ∧ z.before = .begin (.closeDocument uri) := by
  induction h generalizing i st with
  | start =>
    obtain ⟨r, rfl⟩ := Situation.begin_of_ofRequests hi
    cases hst
  | @step log σ σ' e _ hs _ ih =>
    have hearlier {st : Stage} (hi : σ.stages[i]? = some st) (hst : st.clears uri = true) :
        ∃ z ∈ log ++ [e], z.task = i ∧ z.before = .begin (.closeDocument uri) := by
      obtain ⟨z, hz, hzi⟩ := ih hi hst
      exact ⟨z, List.mem_append_left _ hz, hzi⟩
    rcases hs.stage_cases hi with ⟨rfl, rfl⟩ | ⟨-, hi⟩
    · rcases clears_of_move hs.move hst with hb | hb
      · exact ⟨e, by simp, rfl, hb⟩
      · exact hearlier hs.before hb
    · exact hearlier hi hst

theorem Course.closed_of_clears (h : Course host ok (.ofRequests w requests) log σ) {i : TaskId}
    {st : Stage} (hi : σ.stages[i]? = some st) (hst : st.clears uri = true) : Closed uri log := by
  obtain ⟨z, hz, -, hb⟩ := h.began_of_clears hi hst
  exact ⟨z, hz, hb⟩

/-- **Who opens every document before it is closed keeps the promise.** -/
theorem Course.clearsFirst (h : Course host ok (.ofRequests w requests) log σ)
    (honce : ∀ a e b, log = a ++ e :: b → ∀ uri ∈ e.before.opening?, ¬ Closed uri a) :
    Course host ClearsFirst (.ofRequests w requests) log σ := by
  induction h with
  | start => exact .start
  | @step log σ σ' e h hs _ ih =>
    have ih' := ih fun a z b hlog => honce a z (b ++ [e]) (by simp [hlog])
    refine ih'.step hs fun uri huri st hst => ?_
    rw [← Bool.not_eq_true]
    intro hask
    obtain ⟨i, hi⟩ := List.mem_iff_getElem?.mp hst
    exact honce log e [] rfl uri huri (h.closed_of_clears hi (Stage.clears_of_asksToClear hask))

end Withdrawals

end Nsql
