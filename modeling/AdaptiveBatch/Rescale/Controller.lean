import AdaptiveBatch.Config.Basic
import AdaptiveBatch.Rescale.Requirement

/-! # The rescaling controller

A job waits for resources, runs, and from time to time asks for a restart with another parallelism,
after which it waits for resources again.

* While it waits, it starts as soon as its whole plan fits. It starts reduced to what fits when it
  has waited for the configured time, or when the slots have sufficed and not grown for the
  stabilization time. When they do not even suffice after the waiting time, it fails.
* While it runs, it asks for a restart when some vertex must shrink or can grow enough, but not
  sooner than the least interval after the last decision; and for any change of parallelism, when
  the view has not been the one of the last decision for the largest interval.

**`RescaleController.evaluate`** takes one look at the current view; every change of the view, every
poll and every finished restart leads to it. -/

namespace AdaptiveBatch

/-- An armed stabilization timer. -/
@[ext] structure Stabilization where
  /-- When it fires. -/
  deadline : Instant
  /-- The number of slots it was armed at. -/
  slots : Nat
deriving DecidableEq, Repr

/-- Where a job stands with its resources. -/
inductive RescalePhase
  /-- It waits to start with a plan. -/
  | waiting (since : Instant) (target : ParallelismPlan) (stabilization : Option Stabilization)
  /-- It runs. -/
  | running (since : Instant)
  /-- A restart is asked for. -/
  | evaluating (request : ScaleRequest)
  /-- It has given up, with so many of the required slots. -/
  | failed (available required : Nat)
deriving DecidableEq

/-- The name of a phase. -/
def RescalePhase.name : RescalePhase → String
  | .waiting .. => "waiting_resources"
  | .running _ => "running"
  | .evaluating _ => "evaluating_scale"
  | .failed .. => "failed"

/-- The text reported when the slots do not suffice. -/
def RescalePhase.failureText (available required : Nat) : String :=
  s!"resource wait timeout elapsed with {available} of {required} required slots"

/-- What one look at the resources leads to. -/
inductive RescaleAction
  /-- Nothing. -/
  | idle
  /-- The job starts with a plan, which may be reduced to what fits. -/
  | start (plan : ParallelismPlan) (reduced : Bool)
  /-- A restart is asked for. -/
  | scale (request : ScaleRequest)
  /-- The slots do not suffice. -/
  | insufficient (available required : Nat)
deriving DecidableEq

/-- The rescaling of a job. -/
@[ext] structure RescaleController where
  /-- The timeouts and intervals. -/
  settings : RescaleConfig
  /-- Where the job stands. -/
  phase : RescalePhase
  /-- The requirements of the vertices that have started and not finished. -/
  requirements : Std.ExtTreeMap VertexId Requirement
  /-- The parallelism of these vertices. -/
  current : ParallelismPlan := ∅
  /-- The current view. -/
  view : ResourceView := ∅
  /-- The view on which the job started to run. -/
  runningView : ResourceView := ∅
  /-- The latest decision. -/
  lastDecision : Option ScalingDecision := none

namespace RescaleController

/-- The controller of a new job, which waits for what its vertices desire. -/
def ofRequirements (settings : RescaleConfig) (requirements : Std.ExtTreeMap VertexId Requirement)
    (now : Instant) : RescaleController where
  settings := settings
  phase := .waiting now (requirements.map fun _ r => r.desired) none
  requirements := requirements

/-- The slots without which nothing can run: those of the vertex that accepts the fewest. -/
def requiredSlots (c : RescaleController) : Nat :=
  largest (c.requirements.toList.map (·.2.min))

/-- How long it takes until a timer fires, if one is armed. -/
def nextDeadline? (c : RescaleController) (now : Instant) : Checked (Option Duration) :=
  match c.phase with
  | .waiting since _ stabilization => do
    let wait ← match c.settings.waitTimeout.duration? with
      | some timeout => do pure (some ((← since.add timeout).since now))
      | none => pure none
    let stabilize := stabilization.map (·.deadline.since now)
    pure <| match wait, stabilize with
      | some a, some b => some (min a b)
      | a, b => a.or b
  | _ => pure none

/-! ## Vertices -/

/-- A vertex has started. -/
def track (c : RescaleController) (vertex : VertexId) (requirement : Requirement)
    (parallelism : Nat) : RescaleController :=
  { c with
    requirements := c.requirements.insert vertex requirement
    current := c.current.insert vertex parallelism }

/-- A vertex has finished; it leaves every plan that is not carried out yet. -/
def untrack (c : RescaleController) (vertex : VertexId) : RescaleController :=
  { c with
    requirements := c.requirements.erase vertex
    current := c.current.erase vertex
    phase := match c.phase with
      | .evaluating request => .evaluating { request with plan := request.plan.erase vertex }
      | .waiting since target stabilization => .waiting since (target.erase vertex) stabilization
      | phase => phase }

/-! ## Waiting -/

/-- The job starts to run with a plan. -/
def start (c : RescaleController) (plan : ParallelismPlan) (reduced : Bool) (now : Instant) :
    RescaleAction × RescaleController :=
  (.start plan reduced, { c with phase := .running now, current := plan, runningView := c.view })

/-- A plan with every elastic vertex lowered to the number of slots, but not below what it
accepts. -/
def reduce (c : RescaleController) (target : ParallelismPlan) : ParallelismPlan :=
  target.map fun vertex parallelism =>
    match c.requirements[vertex]? with
    | some r => if r.elastic then max (min parallelism c.view.slotCount) r.min else parallelism
    | none => parallelism

/-- The job gives up. -/
def giveUp (c : RescaleController) : RescaleAction × RescaleController :=
  (.insufficient c.view.slotCount c.requiredSlots,
    { c with phase := .failed c.view.slotCount c.requiredSlots })

/-- Whether the waiting time is over. -/
def waitIsOver (c : RescaleController) (since now : Instant) : Bool :=
  c.settings.waitTimeout.duration?.any (· ≤ now.since since)

/-- One look at sufficient resources on which the plan does not fit. The timer is armed at the first
such look and again whenever there are more slots than it was armed at. -/
def stabilize (c : RescaleController) (since : Instant) (target : ParallelismPlan)
    (stabilization : Option Stabilization) (now : Instant) :
    Checked (RescaleAction × RescaleController) :=
  let wait := fun timer =>
    (RescaleAction.idle, { c with phase := .waiting since target (some timer) })
  match stabilization.filter (c.view.slotCount ≤ ·.slots) with
  | some timer =>
    pure (if timer.deadline ≤ now then c.start (c.reduce target) true now else wait timer)
  | none => do
    let deadline ← now.add c.settings.stabilizationTimeout
    pure (wait { deadline, slots := c.view.slotCount })

/-- One look at the resources of a job that waits. -/
def evaluateWaiting (c : RescaleController) (since : Instant) (target : ParallelismPlan)
    (stabilization : Option Stabilization) (now : Instant) :
    Checked (RescaleAction × RescaleController) :=
  if target.slots ≤ c.view.slotCount then pure (c.start target false now)
  else if c.waitIsOver since now then
    pure (if c.requiredSlots ≤ c.view.slotCount then c.start (c.reduce target) true now
      else c.giveUp)
  else if c.view.slotCount < c.requiredSlots then
    pure (.idle, { c with phase := .waiting since target none })
  else c.stabilize since target stabilization now

/-! ## Running -/

/-- The elastic vertices for which the slots allow another parallelism. -/
def changes (c : RescaleController) : ParallelismPlan :=
  c.current.filterMap fun vertex parallelism =>
    match c.requirements[vertex]? with
    | some r =>
      let achievable := r.achievable c.view.slotCount
      if r.elastic && achievable != parallelism then some achievable else none
    | none => none

/-- Whether some vertex can grow by as much as is worth a restart. -/
def canGrow (c : RescaleController) (changes : ParallelismPlan) : Bool :=
  changes.toList.any fun (vertex, parallelism) =>
    let old := c.current.getD vertex 0
    decide (old < parallelism) && decide (c.settings.minParallelismIncrease ≤ parallelism - old)

/-- Whether some vertex must shrink. -/
def mustShrink (c : RescaleController) (changes : ParallelismPlan) : Bool :=
  changes.toList.any fun (vertex, parallelism) => decide (parallelism < c.current.getD vertex 0)

/-- Whether the least interval since the last decision has passed. -/
def intervalHasPassed (c : RescaleController) (now : Instant) : Bool :=
  c.lastDecision.all fun d => decide (c.settings.intervalMin ≤ now.since d.decidedAt)

/-- Whether the view has been another one than that of the last decision, or of the start, for the
largest interval. -/
def isForced (c : RescaleController) (since now : Instant) : Bool :=
  match c.settings.intervalMax with
  | none => false
  | some interval =>
    let reference := c.lastDecision.elim since (·.decidedAt)
    let view := c.lastDecision.elim c.runningView (·.view)
    decide (interval ≤ now.since reference) && view != c.view

/-- A restart is asked for. -/
def request (c : RescaleController) (plan : ParallelismPlan) (reason : ScaleReason)
    (now : Instant) : RescaleAction × RescaleController :=
  let request : ScaleRequest := { plan, reason, issuedAt := now }
  (.scale request,
    { c with
      phase := .evaluating request
      lastDecision := some { plan, decidedAt := now, view := c.view } })

/-- One look at the resources of a job that runs. -/
def evaluateRunning (c : RescaleController) (since now : Instant) :
    RescaleAction × RescaleController :=
  let changes := c.changes
  let grow := c.canGrow changes
  if changes.isEmpty then (.idle, c)
  else if (grow || c.mustShrink changes) && c.intervalHasPassed now then
    c.request changes (if grow then .increase else .decrease) now
  else if c.isForced since now then c.request changes .forced now
  else (.idle, c)

/-! ## Looks at the resources -/

/-- One look at the resources. -/
def evaluate (c : RescaleController) (now : Instant) :
    Checked (RescaleAction × RescaleController) :=
  match c.phase with
  | .waiting since target stabilization => c.evaluateWaiting since target stabilization now
  | .running since => pure (c.evaluateRunning since now)
  | .evaluating _ => pure (.idle, c)
  | .failed .. => pure (.idle, c)

/-- The view has changed. -/
def resourcesChanged (c : RescaleController) (view : ResourceView) (now : Instant) :
    Checked (RescaleAction × RescaleController) :=
  { c with view }.evaluate now

/-- A restart that was asked for is carried out: the job waits for the resources of its new plan. -/
def awaitRestart (c : RescaleController) (now : Instant) : RescaleController :=
  match c.phase with
  | .evaluating request => { c with phase := .waiting now (c.current.override request.plan) none }
  | _ => c

/-- The same, followed by a look at the resources. Without a pending request nothing happens. -/
def restarted (c : RescaleController) (now : Instant) :
    Checked (RescaleAction × RescaleController) :=
  match c.phase with
  | .evaluating _ => (c.awaitRestart now).evaluate now
  | _ => pure (.idle, c)

end RescaleController

end AdaptiveBatch
