/-
  File:      Nsql/Workspace/Schedule.lean
  Subject:   Running tasks together on one processor.

  Tasks are run in rounds. In a round every task, in order, makes steps until it has to wait: for
  its turn to publish, or for an amount of time. When nobody can make a step, the clock goes on to
  the moment when the first of those that wait for time need not wait any longer. An engine may
  wait before it answers, and the connection to the client may take some time over the first
  publication of all. The clock counts milliseconds, and a wait ends with the first tick after the
  time has passed.
-/
import Nsql.Workspace.Task

namespace Nsql.Schedule

/-- A task: its name, what it is about to do, and the time before which it does not do it. -/
structure Task where
  id : TaskId
  stage : Stage
  wake : Nat

/-- A run: what the tasks share, the time, and how long the first publication takes if nothing has
    been published before. -/
structure Run where
  shared : Shared
  clock : Nat
  slowStart : Option Nat

/-- How long a task waits before it does what it is about to do. -/
def Run.delay (host : Host) (r : Run) : Stage → Option Nat
  | .check engine d _ => engine.delay host d.content
  | .publish _ _ _ _ => if r.shared.published.isEmpty then r.slowStart else none
  | .clear _ _ => if r.shared.published.isEmpty then r.slowStart else none
  | _ => none

/-- Runs a task until it has to wait, but no more than so many steps. -/
def Run.task (host : Host) : (steps : Nat) → Run → Task → Run × Task
  | 0, r, t => (r, t)
  | steps + 1, r, t =>
    if r.clock < t.wake then (r, t)
    else
      match t.stage.step host t.id r.shared with
      | none => (r, t)
      | some (shared, stage) =>
        let r := { r with shared := shared }
        match r.delay host stage with
        | some d => (r, ⟨t.id, stage, r.clock + d + 1⟩)
        | none => Run.task host steps r ⟨t.id, stage, r.clock⟩

/-- A round: every task runs until it has to wait. -/
def Run.round (host : Host) (steps : Nat) : Run → List Task → Run × List Task
  | r, [] => (r, [])
  | r, t :: ts =>
    let (r, t) := r.task host steps t
    let (r, ts) := Run.round host steps r ts
    (r, t :: ts)

/-- Whether a task could make a step now. -/
def Run.isReady (host : Host) (r : Run) (t : Task) : Bool :=
  decide (t.wake ≤ r.clock) && (t.stage.step host t.id r.shared).isSome

/-- The time to go on to when nobody can make a step. -/
def Run.nextClock (r : Run) (ts : List Task) : Nat :=
  let later := (ts.map Task.wake).filter fun w => r.clock < w
  later.min?.getD r.clock

/-- Runs rounds until every task has come to its end, but no more than so many. -/
def Run.rounds (host : Host) (steps : Nat) : (count : Nat) → Run → List Task → Run × List Task
  | 0, r, ts => (r, ts)
  | count + 1, r, ts =>
    if ts.all fun t => t.stage.outcome?.isSome then (r, ts)
    else
      let (r, ts) := r.round host steps ts
      let r := if ts.any (r.isReady host) then r else { r with clock := r.nextClock ts }
      Run.rounds host steps count r ts

/-- What the tasks of a run lead to. -/
structure Result where
  workspace : Workspace
  outcomes : List (Option Outcome)
  published : List Publication
  checked : List Text

/-- Deals with requests at the same time. A pass takes six steps and a request two more, and there
    are no more passes for a request than documents are or become open, so the number of steps and
    rounds is enough. -/
def run (host : Host) (w : Workspace) (slowStart : Option Nat) (requests : List Request) : Result :=
  let passes := 1 + w.documents.length + requests.length
  let steps := 8 * (passes + 1)
  let tasks := requests.zipIdx.map fun p => ⟨p.2, .begin p.1, 0⟩
  let (r, ts) :=
    Run.rounds host steps (steps * (requests.length + 1)) ⟨.ofWorkspace w, 0, slowStart⟩ tasks
  ⟨r.shared.workspace, ts.map (·.stage.outcome?), r.shared.published, r.shared.checked⟩

end Nsql.Schedule
