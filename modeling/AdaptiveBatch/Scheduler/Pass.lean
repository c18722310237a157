import AdaptiveBatch.Scheduler.Readiness

/-! # Scheduling passes

A pass places every task that needs a slot, then starts every vertex that has become ready. Placing
a producer can make a consumer ready, so passes are repeated until none starts a vertex.

* **`Scheduler.assign`**, **`Scheduler.ask`**, **`Scheduler.deploy`** — one attempt;
* **`Scheduler.placePending`** — the tasks that need a slot, in the order of vertices and tasks; the
  loads of the nodes are counted once and kept up to date while attempts are added;
* **`Scheduler.startReady`** — the ready vertices in the order of dependencies;
* **`Scheduler.schedule`** — the passes. -/

namespace AdaptiveBatch.Scheduler

open Scheduling

/-! ## Placing -/

/-- Adds an attempt to a task and hands it to its node. -/
def assign (vertex : VertexId) (subtask : Nat) (node : NodeId) (speculative : Bool)
    (now : Instant) : Scheduling AttemptId := do
  let id ← onGraph (·.addAttempt vertex subtask node speculative now)
  onGraph (·.markDeploying id)
  pure id

/-- Asks the backend to start an attempt; gives its identity if the backend accepts it. A refused
attempt has failed. -/
def ask (id : AttemptId) (node : NodeId) (now : Instant) : Scheduling (Option AttemptId) := do
  let (accepted, backend) := (← get).backend.deploy id node now
  modify ({ · with backend })
  if accepted then pure (some id)
  else
    let _ ← onGraph (·.failAttempt id now)
    pure none

/-- Adds an attempt to a task and asks the backend to start it. -/
def deploy (vertex : VertexId) (subtask : Nat) (node : NodeId) (speculative : Bool)
    (now : Instant) : Scheduling (Option AttemptId) := do
  let id ← assign vertex subtask node speculative now
  ask id node now

/-- The attempts that the nodes host: those of all vertices, and those of the vertex that is
placed. -/
structure Occupancy where
  /-- Those of all vertices. -/
  all : NodeCounts
  /-- Those of the vertex. -/
  own : NodeCounts

/-- The counts with one more attempt of the vertex. -/
def Occupancy.bump (o : Occupancy) (node : NodeId) : Occupancy :=
  { all := o.all.bump node, own := o.own.bump node }

/-- The node for an attempt of a task that has no other attempt. -/
def nodeFor? (s : Scheduler) (o : Occupancy) (now : Instant) : Option NodeId :=
  selectNode (nodeLoads s.view o.all o.own s.slow now) { mode := s.config.loadBalance, avoid := [] }

/-- Places a task, if a node is free for it. -/
def placeTask (vertex : VertexId) (now : Instant) (o : Occupancy) (subtask : Nat) :
    Scheduling Occupancy := do
  match (← get).nodeFor? o now with
  | none => pure o
  | some node =>
    match ← deploy vertex subtask node false now with
    | some _ => pure (o.bump node)
    | none => pure o

/-- Places tasks of a vertex. -/
def placeTasks (now : Instant) (all : NodeCounts) (waiting : VertexId × List Nat) :
    Scheduling NodeCounts := do
  let own := (← get).graph.vertexNodeCounts waiting.1
  let o ← waiting.2.foldlM (placeTask waiting.1 now) { all, own }
  pure o.all

/-- The tasks that need a slot, by vertex. -/
def waitingTasks (s : Scheduler) : List (VertexId × List Nat) :=
  s.graph.toList.map fun v => (v.vertex, v.pendingTasks.map (·.subtask))

/-- Places every task that needs a slot, where a node is free. -/
def placePending (now : Instant) : Scheduling Unit := do
  let s ← get
  let _ ← s.waitingTasks.foldlM (placeTasks now) s.graph.nodeCounts

/-! ## Starting -/

/-- Starts a vertex with the parallelism that its inputs and the slots call for. -/
def startVertex (now : Instant) (id : VertexId) : Scheduling Unit := do
  let s ← get
  match s.job.get? id with
  | none => pure ()
  | some v =>
    let inputs ← checked (s.inputStatistics id)
    let parallelism := s.sizing.decideWithin v inputs (some s.view)
    let _ ← onGraph (·.startGeneration id parallelism now)
    modify fun s =>
      { s with controller := s.controller.track id (s.sizing.requirement v inputs) parallelism }

/-- The vertices that are ready and have not started, in the order of dependencies. -/
def readyVertices (s : Scheduler) : List VertexId :=
  s.order.filter fun id => (s.graph.get? id).isNone && s.isReady id

/-- Starts the vertices that are ready; tells how many there were. -/
def startReady (now : Instant) : Scheduling Nat := do
  let ready := (← get).readyVertices
  ready.forM (startVertex now)
  pure ready.length

/-! ## Passes -/

/-- Passes until one starts no vertex, but not more than a given number. -/
def passes (now : Instant) : (limit : Nat) → Scheduling Unit
  | 0 => pure ()
  | limit + 1 => do
    placePending now
    if (← startReady now) = 0 then pure () else passes now limit

/-- The number of vertices that have not started. -/
def unstarted (s : Scheduler) : Nat := s.order.countP fun id => (s.graph.get? id).isNone

/-- Passes until nothing is left to start. Every pass but the last starts a vertex, so the number of
vertices that have not started bounds them. -/
def schedule (now : Instant) : Scheduling Unit := do
  let s ← get
  if s.status.isTerminal || !s.isExecuting then pure () else passes now (s.unstarted + 1)

end AdaptiveBatch.Scheduler
