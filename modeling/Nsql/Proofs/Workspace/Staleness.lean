/-
  File:      Nsql/Proofs/Workspace/Staleness.lean
  Subject:   Which passes are out of date when their turn comes, and which of them are dropped.

  A pass compares the version of its snapshot with the version in the store and nothing else. As
  long as a document is not closed its versions rise (`Rising`), and the comparison tells whether
  the document is still the one that was checked. A document that was closed may come back with
  any version. `Reopened` says that it has come back with a version not above that of the
  snapshot; only then can a pass publish findings about a text that is gone.

  * `Since.course` -- what the store holds after a snapshot was taken;
  * `pass_is_current_unless_reopened` -- when a pass publishes;
  * `reopened_document_shows_old_findings` -- a document that shows the findings of its former
    text in the end.
-/
import Nsql.Proofs.Workspace.Clearing
import Nsql.Proofs.Workspace.Engines

namespace Nsql

open Situation (Step)

/-! ## 1. Promises and events -/

/-- The URI and the version that a task is about to bring. -/
def Stage.stamp? : Stage → Option (String × Int)
  | .begin r => r.stamp?
  | _ => none

/-- The promise that the versions of a document rise while it is open. -/
def Rising (σ : Situation) (e : Event) (σ' : Situation) : Prop :=
  ∀ x ∈ e.before.stamp?, ∀ d ∈ σ.document? x.1, ∀ d' ∈ σ'.document? x.1,
    d' = d ∨ d.version < d'.version

instance (σ : Situation) (e : Event) (σ' : Situation) : Decidable (Rising σ e σ') :=
  inferInstanceAs (Decidable (∀ _ ∈ _, _))

namespace Event

/-- A pass takes its snapshot. -/
def takes (e : Event) : Bool :=
  match e.before with
  | .snapshot _ _ _ => true
  | _ => false

/-- A task begins to close a URI. -/
def closes (uri : String) (e : Event) : Bool :=
  match e.before with
  | .begin (.closeDocument other) => decide (other = uri)
  | _ => false

/-- A task opens a URI at a version not above the given one. -/
def opensAtMost (uri : String) (version : Int) (e : Event) : Bool :=
  match e.before with
  | .begin (.openDocument d) => decide (d.uri = uri ∧ d.version ≤ version)
  | _ => false

theorem closes_iff {uri : String} {e : Event} :
    e.closes uri = true ↔ e.before = .begin (.closeDocument uri) := by
  unfold closes
  split
  · rename_i other hbefore
    rw [hbefore, decide_eq_true_eq]
    exact ⟨fun h => h ▸ rfl, fun h => by cases h; rfl⟩
  · rename_i hother
    exact ⟨fun h => absurd h (by decide), fun h => absurd h (hother uri)⟩

end Event

/-- **A URI was closed and then opened at a version not above the given one.** -/
def Reopened (uri : String) (version : Int) (log : List Event) : Prop :=
  ∃ e ∈ log.dropWhile (fun z => !z.closes uri), e.opensAtMost uri version = true

instance (uri : String) (version : Int) (log : List Event) :
    Decidable (Reopened uri version log) := inferInstanceAs (Decidable (∃ _ ∈ _, _))

section Logs

variable {uri : String} {version : Int} {log : List Event} {e : Event}

theorem closed_iff : Closed uri log ↔ ∃ z ∈ log, z.closes uri = true := by
  simp only [Closed, Event.closes_iff]

/-- What follows the first close goes on when something is added. -/
theorem dropWhile_concat_of_closed (h : Closed uri log) :
    (log ++ [e]).dropWhile (fun z => !z.closes uri) =
      log.dropWhile (fun z => !z.closes uri) ++ [e] := by
  rw [List.dropWhile_append, if_neg]
  intro hnil
  obtain ⟨z, hz, hzc⟩ := closed_iff.mp h
  have hall := List.dropWhile_eq_nil_iff.mp (List.isEmpty_iff.mp hnil) z hz
  simp [hzc] at hall

theorem Reopened.closed (h : Reopened uri version log) : Closed uri log := by
  obtain ⟨e, he, -⟩ := h
  rw [closed_iff]
  by_contra hno
  rw [List.dropWhile_eq_nil_iff.mpr fun z hz => by simpa using fun hc => hno ⟨z, hz, hc⟩] at he
  exact absurd he List.not_mem_nil

theorem Reopened.concat (h : Reopened uri version log) : Reopened uri version (log ++ [e]) := by
  have hclosed := h.closed
  obtain ⟨z, hz, hzo⟩ := h
  refine ⟨z, ?_, hzo⟩
  rw [dropWhile_concat_of_closed hclosed]
  exact List.mem_append_left _ hz

theorem reopened_concat (hc : Closed uri log) (ho : e.opensAtMost uri version = true) :
    Reopened uri version (log ++ [e]) := by
  refine ⟨e, ?_, ho⟩
  rw [dropWhile_concat_of_closed hc]
  exact List.mem_append_right _ List.mem_cons_self

end Logs

/-! ## 2. The store after a snapshot -/

/-- **Since document `d` was in the store**: what is there now is `d` and was never closed, or has
    a higher version, or was opened again at a version not above; and if nothing is there, the
    document was closed. -/
structure Since (uri : String) (d : Document) (log : List Event) (σ : Situation) : Prop where
  opened : ∀ {d' : Document}, σ.document? uri = some d' →
    (d' = d ∧ ¬ Closed uri log) ∨ d.version < d'.version ∨ Reopened uri d.version log
  closed : σ.document? uri = none → Closed uri log

section Since

variable {host : Host} {uri : String} {d : Document} {log : List Event} {σ₀ σ σ' : Situation}
  {e : Event}

theorem Since.start (hd : σ.document? uri = some d) : Since uri d [] σ where
  opened {d'} hd' := by
    refine .inl ⟨Option.some.inj (hd'.symm.trans hd), ?_⟩
    rintro ⟨z, hz, -⟩
    exact absurd hz List.not_mem_nil
  closed hgone := by
    rw [hd] at hgone
    cases hgone

/-- The document that a task has just brought. -/
theorem Since.opened_of_put (h : Since uri d log σ) (hok : Rising σ e σ') {r : Request}
    {d' : Document} (hbefore : e.before = .begin r) (hr : r.stamp? = some (uri, d'.version))
    (huri : d'.uri = uri) (hput : σ'.document? uri = some d')
    (hnew : r = .openDocument d' ∨ (σ.document? uri).isSome = true) :
    (d' = d ∧ ¬ Closed uri (log ++ [e])) ∨ d.version < d'.version ∨
      Reopened uri d.version (log ++ [e]) := by
  have hclose : e.before ≠ .begin (.closeDocument uri) := by
    rw [hbefore]
    intro hc
    cases hc
    cases hr
  cases hold : σ.document? uri with
  | none =>
    -- a document that was closed has come back
    rcases hnew with rfl | hopen
    · by_cases hv : d'.version ≤ d.version
      · refine .inr (.inr (reopened_concat (h.closed hold) ?_))
        simp [Event.opensAtMost, hbefore, huri, hv]
      · exact .inr (.inl (by omega))
    · rw [hold] at hopen
      cases hopen
  | some d₀ =>
    have hstamp : (uri, d'.version) ∈ e.before.stamp? := by
      rw [hbefore]
      exact hr
    rcases h.opened hold with ⟨rfl, hnever⟩ | hlt | hre
    · rcases hok _ hstamp _ hold _ hput with rfl | hlt
      · exact .inl ⟨rfl, fun hc => hnever (hc.of_concat hclose)⟩
      · exact .inr (.inl hlt)
    · rcases hok _ hstamp _ hold _ hput with rfl | hlt'
      · exact .inr (.inl hlt)
      · exact .inr (.inl (by omega))
    · exact .inr (.inr hre.concat)

/-- **What a step keeps of it**, as long as versions rise. -/
theorem Since.step (h : Since uri d log σ) (hs : Step host σ e σ') (hok : Rising σ e σ') :
    Since uri d (log ++ [e]) σ' := by
  rcases hs.document_cases uri with
    ⟨hsame, hclose⟩ | ⟨r, d₀, hbefore, hr, huri, hput, -, hnew⟩ | ⟨hbefore, hgone, -⟩
  · refine ⟨fun {d'} hd' => ?_, fun hgone => (h.closed (by rw [← hsame, hgone])).concat⟩
    rw [hsame] at hd'
    rcases h.opened hd' with ⟨rfl, hnever⟩ | hlt | hre
    · exact .inl ⟨rfl, fun hc => hnever (hc.of_concat hclose)⟩
    · exact .inr (.inl hlt)
    · exact .inr (.inr hre.concat)
  · refine ⟨fun {d'} hd' => ?_, fun hgone => ?_⟩
    · obtain rfl : d₀ = d' := Option.some.inj (hput.symm.trans hd')
      exact h.opened_of_put hok hbefore hr huri hput hnew
    · rw [hput] at hgone
      cases hgone
  · refine ⟨fun {d'} hd' => ?_, fun _ => ⟨e, by simp, hbefore⟩⟩
    rw [hgone] at hd'
    cases hd'

/-- **What the store holds after a snapshot was taken.** -/
theorem Since.course (h : Course host Rising σ₀ log σ) (hd : σ₀.document? uri = some d) :
    Since uri d log σ := by
  induction h with
  | start => exact .start hd
  | step _ hs hok ih => exact ih.step hs hok

end Since

/-! ## 3. What a pass publishes -/

section Passes

variable {host : Host} {ok : Situation → Event → Situation → Prop} {log : List Event}
  {σ₀ σ : Situation}

/-- A task that takes no other snapshot keeps the one that it has. -/
theorem Course.snapshot_kept (h : Course host ok σ₀ log σ) {j : TaskId} {x : Engine × Document}
    (hstart : ∀ {st y}, σ₀.stages[j]? = some st → st.snapshot? = some y → y = x)
    (honly : ∀ z ∈ log, z.task = j → z.takes = false) {st : Stage} {y : Engine × Document}
    (hj : σ.stages[j]? = some st) (hst : st.snapshot? = some y) : y = x := by
  induction h generalizing st y with
  | start => exact hstart hj hst
  | @step log σ σ' e _ hs _ ih =>
    have ih' := fun {st y} => @ih (fun z hz => honly z (List.mem_append_left _ hz)) st y
    rcases hs.stage_cases hj with ⟨rfl, rfl⟩ | ⟨-, hj⟩
    · rcases snapshot_of_move hs.move hst with hb | ⟨uri, p, hb, -⟩
      · exact ih' hs.before hb
      · have hno := honly e (by simp) rfl
        simp [Event.takes, hb] at hno
    · exact ih' hj hst

/-- A snapshot is the document that the store holds. -/
theorem Situation.Step.document_of_snapshot {σ' : Situation} {j : TaskId} {en : Engine}
    {uri : String} {p : Purpose} {d : Document}
    (hs : Step host σ ⟨j, .snapshot en uri p, .check en d p⟩ σ') :
    σ'.document? uri = some d := by
  have htaken : σ.document? uri = some d := by
    rcases snapshot_of_move hs.move (show Stage.snapshot? _ = some (en, d) from rfl) with
      hb | ⟨uri', p', hb, hd⟩
    · cases hb
    · cases hb
      exact hd
  rcases hs.document_cases uri with ⟨hsame, -⟩ | ⟨r, d', hb, -⟩ | ⟨hb, -⟩
  · rw [hsame, htaken]
  · cases hb
  · cases hb

end Passes

/-- **When a pass publishes.** A pass takes document `d` of a URI as its snapshot and takes no
    other one until its turn has come. It then has the findings about the text of `d`. It publishes
    them exactly if the store holds a document of the same version; unless the URI was closed and
    opened again at a version not above, exactly if the store holds `d` itself and the URI was
    never closed. -/
theorem pass_is_current_unless_reopened (host : Host) (w : Workspace) (requests : List Request)
    (a b : List Event) (σ σ' : Situation) (j : TaskId) (en en' : Engine) (uri : String)
    (p p' : Purpose) (d d' : Document) (f : List Diagnostic) (st : Stage)
    (hfixed : ∀ config, .configure config ∉ requests)
    (hcourse : Course host Rising (.ofRequests w requests)
      (a ++ ⟨j, .snapshot en uri p, .check en d p⟩ :: b) σ)
    (honly : ∀ z ∈ b, z.task = j → z.takes = false)
    (hturn : Step host σ ⟨j, .compare en' d' f p', st⟩ σ') :
    d' = d ∧ f = w.engine.check host d.content ∧
    (st = .publish en' d' f p' ↔
      ∃ d₁, σ.document? uri = some d₁ ∧ d₁.version = d.version) ∧
    (¬ Reopened uri d.version b →
      (st = .publish en' d' f p' ↔ σ.document? uri = some d ∧ ¬ Closed uri b)) := by
  obtain ⟨σ₁, σ₂, -, hsnap, -, hafter⟩ := hcourse.at
  have hstored : σ₂.document? uri = some d := hsnap.document_of_snapshot
  have hsince : Since uri d b σ := .course hafter hstored
  -- from its snapshot on the task has `en` and `d` in its hands
  have hstart : ∀ {st y}, σ₂.stages[j]? = some st → st.snapshot? = some y → y = (en, d) := by
    intro st y hj hst
    obtain rfl := Option.some.inj (hsnap.after_eq.symm.trans hj)
    exact (Option.some.inj hst).symm
  have hkept : (en', d') = (en, d) := hafter.snapshot_kept hstart honly hturn.before rfl
  obtain ⟨rfl, rfl⟩ := Prod.mk.inj hkept
  have hengine : en' = w.engine :=
    hcourse.engine_of_pass (fun k hk => hcourse.reconfigures_eq_false hfixed hk) hturn.before rfl
  have hfindings : f = en'.check host d'.content := hcourse.sound hturn.before
  have haccepted : st = .publish en' d' f p' ↔
      ∃ d₁, σ.document? uri = some d₁ ∧ d₁.version = d'.version := by
    have huri : d'.uri = uri := Store.uri_of_get? hstored
    rw [accepted_iff hturn.move, huri]
    exact Option.map_eq_some_iff
  refine ⟨rfl, by rw [hfindings, hengine], haccepted, fun hnever => haccepted.trans ⟨?_, ?_⟩⟩
  · rintro ⟨d₁, hd₁, hv⟩
    rcases hsince.opened hd₁ with ⟨rfl, hopen⟩ | hlt | hre
    · exact ⟨hd₁, hopen⟩
    · exact absurd hv (by omega)
    · exact absurd hre hnever
  · rintro ⟨hd, -⟩
    exact ⟨d', hd, rfl⟩

/-- A pass over a document that is closed and opened again at a higher version, with another text,
    before the turn of the pass comes: the pass is dropped. -/
theorem pass_is_dropped_when_reopened_above :
    ∃ a b σ σ', Course ⟨[], none, none, .ok⟩ Rising
        (.ofRequests (.ofConfig .default)
          [.openDocument (.ofText "a" "nsql" 1 []), .closeDocument "a",
            .openDocument (.ofText "a" "nsql" 2 [';'])])
        (a ++ ⟨0, .snapshot (.ofConfig .default) "a" .single,
          .check (.ofConfig .default) (.ofText "a" "nsql" 1 []) .single⟩ :: b) σ ∧
      (∀ z ∈ b, z.task = 0 → z.takes = false) ∧
      Step ⟨[], none, none, .ok⟩ σ
        ⟨0, .compare (.ofConfig .default) (.ofText "a" "nsql" 1 []) [] .single,
          .finished (.validated none)⟩ σ' ∧
      Closed "a" b ∧ ¬ Reopened "a" 1 b ∧
      (¬ ∃ d, σ.document? "a" = some d ∧ d.version = 1) ∧
      ¬ (σ.document? "a" = some (.ofText "a" "nsql" 1 []) ∧ ¬ Closed "a" b) := by
  let before : List Event :=
    [⟨0, .begin (.openDocument (.ofText "a" "nsql" 1 [])), .readEngine "a" .single⟩,
      ⟨0, .readEngine "a" .single, .snapshot (.ofConfig .default) "a" .single⟩]
  let since : List Event :=
    [⟨1, .begin (.closeDocument "a"), .askToClear "a" true⟩,
      ⟨2, .begin (.openDocument (.ofText "a" "nsql" 2 [';'])), .readEngine "a" .single⟩,
      ⟨0, .check (.ofConfig .default) (.ofText "a" "nsql" 1 []) .single,
        .ask (.ofConfig .default) (.ofText "a" "nsql" 1 []) [] .single⟩,
      ⟨0, .ask (.ofConfig .default) (.ofText "a" "nsql" 1 []) [] .single,
        .compare (.ofConfig .default) (.ofText "a" "nsql" 1 []) [] .single⟩]
  obtain ⟨σ', hfollow⟩ : ∃ σ', Situation.follow ⟨[], none, none, .ok⟩ Rising
      (.ofRequests (.ofConfig .default)
        [.openDocument (.ofText "a" "nsql" 1 []), .closeDocument "a",
          .openDocument (.ofText "a" "nsql" 2 [';'])]) [0, 0, 0, 1, 2, 0, 0, 0] =
      some ((before ++ ⟨0, .snapshot (.ofConfig .default) "a" .single,
          .check (.ofConfig .default) (.ofText "a" "nsql" 1 []) .single⟩ :: since) ++
        [⟨0, .compare (.ofConfig .default) (.ofText "a" "nsql" 1 []) [] .single,
          .finished (.validated none)⟩], σ') := ⟨_, rfl⟩
  obtain ⟨σ, hcourse, hturn, -⟩ := (course_of_follow hfollow).last
  have honly : ∀ z ∈ since, z.task = 0 → z.takes = false := by decide
  have hnever : ¬ Reopened "a" 1 since := by decide
  have hclosed : Closed "a" since := ⟨_, List.mem_cons_self, rfl⟩
  obtain ⟨-, -, hversion, hcurrent⟩ := pass_is_current_unless_reopened _ _ _ _ _ σ σ' 0 _ _ "a"
    _ _ _ _ _ _ (by simp) hcourse honly hturn
  exact ⟨_, _, σ, σ', hcourse, honly, hturn, hclosed, hnever,
    fun h => Stage.noConfusion (hversion.mpr h),
    fun h => Stage.noConfusion ((hcurrent hnever).mpr h)⟩

/-- A pass takes its snapshot; the document is closed, its findings are withdrawn, and it is opened
    again with another text at the same version. The pass is not dropped, and when all is done the
    client shows the findings about the former text. -/
theorem reopened_document_shows_old_findings :
    ∃ log σ, Course ⟨[], none, none, .ok⟩ Rising
        (.ofRequests (.ofConfig .default)
          [.openDocument (.ofText "a" "nsql" 1 ['A', 'S', 'K', ' ', 'a']), .closeDocument "a",
            .openDocument (.ofText "a" "nsql" 1 [])]) log σ ∧
      σ.Finished ∧ σ.document? "a" = some (.ofText "a" "nsql" 1 []) ∧
      σ.shown? "a" = some (σ.shared.workspace.pass ⟨[], none, none, .ok⟩
        (.ofText "a" "nsql" 1 ['A', 'S', 'K', ' ', 'a'])) ∧
      σ.shown? "a" ≠ some (σ.shared.workspace.pass ⟨[], none, none, .ok⟩
        (.ofText "a" "nsql" 1 [])) :=
  exists_course_of_follow _ _ _ _ [0, 0, 0, 0, 1, 1, 1, 1, 2, 2, 2, 2, 2, 2, 2, 0, 0, 0]
    (by decide +kernel)

end Nsql
