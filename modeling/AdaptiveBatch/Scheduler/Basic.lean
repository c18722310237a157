import AdaptiveBatch.Config.Resolve
import AdaptiveBatch.Job.Order
import AdaptiveBatch.Rescale.Controller
import AdaptiveBatch.Straggler.Speculation

/-! # The scheduler of a job

The scheduler owns the execution of one job and tells a backend which attempts to start and to stop.
Each of its calls takes the current time and changes it; a call may be refused with an error or be
abandoned, and what it has changed until then stays changed.

* **`Scheduler`** — the state of a job; **`JobStatus`**, **`Scheduler.status`** — where it stands;
* **`Backend`** — what the backend was asked to do, and how it answers;
* **`SchedulerError`** — why a call is refused;
* **`Scheduler.submit`** — a job under settings, or what is wrong with either: the settings, the
  graph and the bounds of its vertices are checked in this order. The new job waits for the slots
  its sources need;
* **`Scheduling`** — calls on a scheduler. -/

namespace AdaptiveBatch

/-- Where a job stands. -/
inductive JobStatus
  /-- It waits for slots. -/
  | waitingResources
  /-- It runs. -/
  | running
  /-- It runs, and a restart is asked for. -/
  | rescaling
  /-- Every task is finished. -/
  | finished
  /-- It has given up. -/
  | failed
deriving DecidableEq, Repr

namespace JobStatus

/-- The name in data. -/
def name : JobStatus → String
  | waitingResources => "waiting_resources"
  | running => "running"
  | rescaling => "rescaling"
  | finished => "finished"
  | failed => "failed"

/-- The name in reports. -/
def label : JobStatus → String
  | waitingResources => "WaitingResources"
  | running => "Running"
  | rescaling => "Rescaling"
  | finished => "Finished"
  | failed => "Failed"

/-- Whether nothing happens any more. -/
def isTerminal : JobStatus → Bool
  | finished => true
  | failed => true
  | _ => false

end JobStatus

/-! ## Errors -/

/-- Why a call on a scheduler is refused. -/
inductive SchedulerError
  /-- The settings or the job cannot be used. -/
  | configuration (e : ConfigError)
  /-- The slots do not suffice. -/
  | insufficient (available required : Nat)
  /-- A task has waited too long for a slot. -/
  | slotRequestTimeout (vertex : VertexId) (subtask : Nat) (waited : Duration)
  /-- The last active attempt of a task has failed. -/
  | taskFailed (id : AttemptId)
  /-- The job has no such vertex. -/
  | unknownVertex (vertex : VertexId)
  /-- A report or a request does not fit the execution. -/
  | execution (e : ExecutionError)
deriving DecidableEq, Repr

/-- The text reported for a refused call. -/
def SchedulerError.message : SchedulerError → String
  | .configuration e => s!"configuration error: {e.message}"
  | .insufficient available required =>
    s!"insufficient resources: {available} of {required} required slots"
  | .slotRequestTimeout vertex subtask waited =>
    s!"slot request for {vertex}[{subtask}] timed out after {waited.describe}"
  | .taskFailed id => s!"task failed: attempt {id.text} has no remaining sibling"
  | .unknownVertex vertex => s!"unknown vertex: {vertex}"
  | .execution e => s!"execution state error: {e.message}"

/-- Why a call on a scheduler ends early. -/
inductive Interruption
  /-- It is refused. -/
  | refused (e : SchedulerError)
  /-- It leaves the range of a quantity. -/
  | abandoned (o : Overflow)
deriving DecidableEq, Repr

/-! ## The backend -/

/-- What the backend was asked to do. -/
inductive BackendCall
  /-- To start an attempt on a node, at a time; tells whether the backend has accepted. -/
  | deploy (id : AttemptId) (node : NodeId) (now : Instant) (accepted : Bool)
  /-- To stop an attempt. The attempt is given up, whatever the answer. -/
  | cancel (id : AttemptId)
deriving DecidableEq, Repr

/-- Whether the backend was asked to start an attempt. -/
def BackendCall.isDeploy : BackendCall → Bool
  | .deploy .. => true
  | .cancel _ => false

/-- The backend that executes attempts. -/
structure Backend where
  /-- Whether it accepts the attempt that it is asked to start as the `n`-th one, counted from
  zero. -/
  accepts : Nat → Bool
  /-- What it was asked to do, the latest call first. -/
  calls : List BackendCall := []

namespace Backend

/-- The backend that accepts every attempt. -/
def willing : Backend := { accepts := fun _ => true }

instance : Inhabited Backend := ⟨willing⟩

/-- The number of attempts it was asked to start. -/
def deployCount (b : Backend) : Nat := b.calls.countP BackendCall.isDeploy

/-- Asks to start an attempt; tells whether it was accepted. -/
def deploy (b : Backend) (id : AttemptId) (node : NodeId) (now : Instant) : Bool × Backend :=
  let accepted := b.accepts b.deployCount
  (accepted, { b with calls := .deploy id node now accepted :: b.calls })

/-- Asks to stop attempts, one after the other. -/
def cancelAll (b : Backend) (ids : List AttemptId) : Backend :=
  { b with calls := ids.foldl (fun calls id => .cancel id :: calls) b.calls }

end Backend

/-! ## The state of a job -/

/-- The state of a job. -/
structure Scheduler where
  /-- The settings. -/
  config : Config
  /-- The job. -/
  job : JobGraph
  /-- Its vertices in the order of their dependencies. -/
  order : List VertexId
  /-- The execution of its vertices. -/
  graph : ExecutionGraph := ∅
  /-- The speculative execution of slow tasks. -/
  speculation : Speculation
  /-- The blocked nodes. -/
  slow : SlowNodes := ∅
  /-- The rescaling of the job. -/
  controller : RescaleController
  /-- The backend. -/
  backend : Backend
  /-- When the job started to run the last time. -/
  runningSince : Option Instant := none
  /-- Whether every task is finished. -/
  finished : Bool := false
  /-- Why the job has failed. -/
  failure : Option SchedulerError := none
  /-- The number of attempts added for slow tasks. -/
  speculativeLaunches : Nat := 0
  /-- The number of restarts with another parallelism. -/
  rescales : Nat := 0

namespace Scheduler

/-- Where the job stands. -/
def status (s : Scheduler) : JobStatus :=
  if s.failure.isSome then .failed
  else if s.finished then .finished
  else match s.controller.phase with
    | .waiting .. => .waitingResources
    | .running _ => .running
    | .evaluating _ => .rescaling
    | .failed .. => .failed

/-- The slots the job may use. -/
def view (s : Scheduler) : ResourceView := s.controller.view

/-- Whether attempts may be started: the job runs, be it with a restart asked for. -/
def isExecuting (s : Scheduler) : Bool :=
  match s.controller.phase with
  | .running _ => true
  | .evaluating _ => true
  | _ => false

/-- The rules that decide parallelisms. -/
def sizing (s : Scheduler) : Sizing := .ofConfig s.config

/-- Asks the backend to stop attempts. -/
def cancelRemote (s : Scheduler) (ids : List AttemptId) : Scheduler :=
  { s with backend := s.backend.cancelAll ids }

/-- The attempts that hold a slot. -/
def activeIds (s : Scheduler) : List AttemptId :=
  (s.graph.toList.flatMap VertexExecution.activeAttempts).map (·.id)

/-- The job has failed, and every attempt that holds a slot is canceled. -/
def fail (s : Scheduler) (e : SchedulerError) (now : Instant) : Scheduler :=
  let graph := s.activeIds.foldl (fun g id =>
    match g.cancelAttempt id now with
    | .ok (_, g) => g
    | .error _ => g) s.graph
  { s with failure := some e, graph }.cancelRemote s.activeIds

/-! ## Submission -/

/-- The requirements of the sources of a job. -/
def sourceRequirements (sizing : Sizing) (job : JobGraph) : Std.ExtTreeMap VertexId Requirement :=
  (job.vertices.filter fun v => job.isSource v.id).foldl
    (fun requirements v => requirements.insert v.id (sizing.requirement v [])) ∅

/-- The scheduler of a new job. -/
def submit (config : Config) (job : JobGraph) (backend : Backend) (now : Instant) :
    Except SchedulerError Scheduler := do
  config.validate.mapError .configuration
  let order ← job.topologicalOrder.mapError fun e => .configuration (.graph e)
  let sizing := Sizing.ofConfig config
  (job.vertices.forM sizing.validateVertex).mapError .configuration
  let requirements := sourceRequirements sizing job
  pure {
    config, job, backend
    order := order.map (·.id)
    speculation := .ofConfig config
    controller := .ofRequirements config.rescale requirements now }

end Scheduler

/-! ## Calls -/

/-- A call on a scheduler. -/
abbrev Scheduling := EStateM Interruption Scheduler

namespace Scheduling

/-- The call is refused. -/
def refuse {α : Type} (e : SchedulerError) : Scheduling α := throw (.refused e)

/-- The job gives up, and the call is refused. -/
def giveUp {α : Type} (e : SchedulerError) (now : Instant) : Scheduling α := do
  modify (·.fail e now)
  refuse e

/-- The result of a computation that may be abandoned. -/
def checked {α : Type} : Checked α → Scheduling α
  | .ok a => pure a
  | .error o => throw (.abandoned o)

/-- An operation on the execution of the job. -/
def onGraph {α : Type} (f : ExecutionGraph → Except ExecutionError (α × ExecutionGraph)) :
    Scheduling α := do
  match f (← get).graph with
  | .ok (a, graph) => do
    modify ({ · with graph })
    pure a
  | .error e => refuse (.execution e)

/-- An operation on the rescaling of the job. -/
def onController (f : RescaleController → Checked (RescaleAction × RescaleController)) :
    Scheduling RescaleAction := do
  let (action, controller) ← checked (f (← get).controller)
  modify ({ · with controller })
  pure action

/-- Starts a new generation of a vertex and stops the attempts of the old one. -/
def restart (vertex : VertexId) (parallelism : Nat) (now : Instant) : Scheduling Unit := do
  let start ← onGraph (·.startGeneration vertex parallelism now)
  modify (·.cancelRemote start.canceled)

end Scheduling

end AdaptiveBatch
