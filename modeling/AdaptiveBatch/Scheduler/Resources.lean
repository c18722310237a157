import AdaptiveBatch.Scheduler.Pass

/-! # Resources and restarts

The scheduler carries out what its rescaling controller decides: it starts the vertices of a plan,
hands out requests for a restart, and gives up when the slots do not suffice or a task has waited
too long for one.

* **`Scheduler.resourcesChanged`**, **`Scheduler.poll`** — looks at the resources; both return the
  request for a restart that they lead to;
* **`Scheduler.applyScale`** — a restart is carried out. -/

namespace AdaptiveBatch.Scheduler

open Scheduling

/-! ## Decisions of the controller -/

/-- Whether a vertex needs a new generation to run with a parallelism: it has not started, or it is
unfinished and runs with another one. -/
def needsGeneration (s : Scheduler) (vertex : VertexId) (parallelism : Nat) : Bool :=
  match s.graph.get? vertex with
  | none => true
  | some v => !v.isFinished && v.parallelism != parallelism

/-- Runs a vertex with a parallelism. -/
def startPlanned (now : Instant) (planned : VertexId × Nat) : Scheduling Unit := do
  if (← get).needsGeneration planned.1 planned.2 then restart planned.1 planned.2 now

/-- Carries out a decision of the controller. -/
def carryOut (now : Instant) : RescaleAction → Scheduling (Option ScaleRequest)
  | .idle => pure none
  | .start plan _ => do
    plan.toList.forM (startPlanned now)
    modify ({ · with runningSince := some now })
    pure none
  | .scale request => pure (some request)
  | .insufficient available required => giveUp (.insufficient available required) now

/-! ## Looks at the resources -/

/-- One look at the resources and what it leads to. -/
def look (now : Instant) : Scheduling (Option ScaleRequest) := do
  carryOut now (← onController (·.evaluate now))

/-- The view of the resources has changed; slots beyond the configured number are not used. -/
def resourcesChanged (view : ResourceView) (now : Instant) : Scheduling (Option ScaleRequest) := do
  if (← get).status.isTerminal then pure none
  else
    modify fun s =>
      { s with controller := { s.controller with view := view.capped s.config.slots.maxSlots } }
    let request ← look now
    schedule now
    pure request

/-- The first task that has waited too long for a slot, since its creation or since the job started
to run, and the time it has waited. -/
def overdueTask? (s : Scheduler) (runningSince now : Instant) :
    Option (VertexId × Nat × Duration) :=
  s.graph.toList.findSome? fun v =>
    (v.pendingTasks.find? fun t =>
        decide (s.config.slots.requestTimeout < now.since (max t.createdAt runningSince))).map
      fun t => (v.vertex, t.subtask, now.since (max t.createdAt runningSince))

/-- Gives up when a task has waited too long for a slot. -/
def checkSlotRequests (now : Instant) : Scheduling Unit := do
  let s ← get
  match s.runningSince with
  | none => pure ()
  | some since =>
    if s.isExecuting then
      match s.overdueTask? since now with
      | none => pure ()
      | some (vertex, subtask, waited) => giveUp (.slotRequestTimeout vertex subtask waited) now

/-- Looks at the resources again, and at the tasks that wait for a slot. -/
def poll (now : Instant) : Scheduling (Option ScaleRequest) := do
  if (← get).status.isTerminal then pure none
  else
    let request ← look now
    schedule now
    checkSlotRequests now
    pure request

/-! ## Restarts -/

/-- Starts a new generation of a vertex that is started and not finished. -/
def restartPlanned (now : Instant) (planned : VertexId × Nat) : Scheduling Unit := do
  if ((← get).graph.get? planned.1).any (!·.isFinished) then restart planned.1 planned.2 now

/-- The vertices of a request start over, and the job waits for the slots of its new plan. -/
def restartAll (request : ScaleRequest) (now : Instant) : Scheduling Unit := do
  request.plan.toList.forM (restartPlanned now)
  modify fun s =>
    { s with rescales := s.rescales + 1, controller := s.controller.awaitRestart now }

/-- The restart for a request is carried out. Without a pending request nothing happens. -/
def applyScale (request : ScaleRequest) (now : Instant) : Scheduling Unit := do
  let s ← get
  if s.status != .rescaling then pure ()
  else
    restartAll request now
    let _ ← look now
    schedule now

end AdaptiveBatch.Scheduler
