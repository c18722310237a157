import AdaptiveBatch.Scheduler.Resources

/-! # Reports and ticks

* **`Scheduler.attemptRunning`**, **`Scheduler.attemptProgressed`**,
  **`Scheduler.attemptFinished`**, **`Scheduler.attemptFailed`** — what an attempt reports; stray
  reports change nothing;
* **`Scheduler.tick`** — slow attempts are looked for;
* **`Event`** — what a job is told from outside. -/

namespace AdaptiveBatch

namespace Scheduler

open Scheduling

/-! ## Reports -/

/-- An attempt runs. -/
def attemptRunning (id : AttemptId) (now : Instant) : Scheduling Unit := do
  let _ ← onGraph (·.markRunning id now)

/-- An attempt has read so many bytes. -/
def attemptProgressed (id : AttemptId) (bytes : Nat) : Scheduling Unit := do
  let _ ← onGraph (·.recordProgress id bytes)

/-- Whether every vertex of the job is finished. -/
def allFinished (s : Scheduler) : Bool := s.job.vertices.all fun v => s.graph.isFinished v.id

/-- A vertex is finished: it leaves the plans, and with the last one the job is finished. -/
def vertexFinished (vertex : VertexId) : Scheduling Unit :=
  modify fun s =>
    { s with
      controller := s.controller.untrack vertex
      finished := s.finished || s.allFinished }

/-- An attempt is finished: it wins its task, and its rivals are stopped. -/
def attemptFinished (id : AttemptId) (inputBytes outputBytes : Option Nat) (now : Instant) :
    Scheduling Unit := do
  match ← onGraph (·.finishAttempt id inputBytes outputBytes now) with
  | .stray _ => pure ()
  | .applied win =>
    modify (·.cancelRemote win.canceled)
    if win.vertexFinished then vertexFinished id.vertex
    schedule now

/-- An attempt has failed. When it was the last active one of its task, the job gives up. -/
def attemptFailed (id : AttemptId) (now : Instant) : Scheduling Unit := do
  match ← onGraph (·.failAttempt id now) with
  | .stray _ => pure ()
  | .applied .siblingsRemain => schedule now
  | .applied .taskLost => giveUp (.taskFailed id) now

/-! ## Ticks -/

/-- Adds an attempt to a slow task; gives its identity if the backend accepts it. -/
def launch (now : Instant) (l : Launch) : Scheduling (Option AttemptId) := do
  let id? ← deploy l.task.vertex l.task.subtask l.node true now
  if id?.isSome then
    modify fun s => { s with speculativeLaunches := s.speculativeLaunches + 1 }
  pure id?

/-- Looks for slow attempts and adds attempts to their tasks; gives the added ones. -/
def speculate (now : Instant) : Scheduling (List AttemptId) := do
  let s ← get
  let slow := s.config.slowAttempts s.graph now
  let (launches, speculation, registry) ←
    checked (s.speculation.react slow { graph := s.graph, view := s.view, slow := s.slow, now })
  modify ({ · with speculation, slow := registry })
  let ids ← launches.mapM (launch now)
  pure (ids.filterMap id)

/-- A tick: blocks that have ended are forgotten, slow tasks get further attempts, and the tasks
that need a slot are tried again. Gives the added attempts. -/
def tick (now : Instant) : Scheduling (List AttemptId) := do
  if (← get).status.isTerminal then pure []
  else
    modify fun s => { s with slow := s.slow.purge now }
    let launched ← if (← get).isExecuting then speculate now else pure []
    schedule now
    pure launched

end Scheduler

/-! ## Events -/

/-- What a job is told from outside. -/
inductive Event
  /-- An attempt runs. -/
  | running (id : AttemptId)
  /-- An attempt has read so many bytes. -/
  | progress (id : AttemptId) (bytes : Nat)
  /-- An attempt is finished. -/
  | finished (id : AttemptId) (inputBytes outputBytes : Option Nat)
  /-- An attempt has failed. -/
  | failed (id : AttemptId)
  /-- The view of the resources has changed. -/
  | resources (view : ResourceView)
  /-- The restart for a request is carried out. -/
  | scaled (request : ScaleRequest)

namespace Event

/-- The name of the kind of event. -/
def name : Event → String
  | running _ => "attempt_running"
  | progress .. => "attempt_progress"
  | finished .. => "attempt_finished"
  | failed _ => "attempt_failed"
  | resources _ => "resources_changed"
  | scaled _ => "apply_scale"

/-- The call that an event makes; a request for a restart is returned. -/
def call (now : Instant) : Event → Scheduling (Option ScaleRequest)
  | running id => do Scheduler.attemptRunning id now; pure none
  | progress id bytes => do Scheduler.attemptProgressed id bytes; pure none
  | finished id inputBytes outputBytes => do
    Scheduler.attemptFinished id inputBytes outputBytes now
    pure none
  | failed id => do Scheduler.attemptFailed id now; pure none
  | resources view => Scheduler.resourcesChanged view now
  | scaled request => do Scheduler.applyScale request now; pure none

end Event

end AdaptiveBatch
