import AdaptiveBatch.Straggler.Detection

/-! # Speculative execution

The node of a slow attempt is blocked for a while, and its task gets one more attempt on another
node, unless it has as many as it may have. A task for which no node is free is deferred: it is
considered again the next time, together with the tasks that are slow then.

* **`TaskKey`**, **`Launch`** — a task and the node chosen for it;
* **`Speculation`** — the settings and the deferred tasks;
* **`Speculation.considerAll`** — the launches, one task after the other;
* **`Speculation.react`** — the same for a list of slow attempts. -/

namespace AdaptiveBatch

/-- A task of a generation. -/
@[ext] structure TaskKey where
  /-- The vertex. -/
  vertex : VertexId
  /-- The index of the task. -/
  subtask : Nat
  /-- The generation of the vertex. -/
  generation : Nat
deriving DecidableEq, Repr

namespace TaskKey

/-- The task that an attempt belongs to. -/
def ofAttempt (id : AttemptId) : TaskKey :=
  { vertex := id.vertex, subtask := id.subtask, generation := id.generation }

/-- The order in which tasks are considered: by vertex, index and generation. -/
def precedes (a b : TaskKey) : Bool :=
  decide (a.vertex < b.vertex) || (decide (a.vertex = b.vertex) &&
    (decide (a.subtask < b.subtask) || (decide (a.subtask = b.subtask) &&
      decide (a.generation ≤ b.generation))))

end TaskKey

/-- One more attempt of a task. -/
@[ext] structure Launch where
  /-- The task. -/
  task : TaskKey
  /-- The node of the attempt. -/
  node : NodeId
deriving DecidableEq, Repr

/-- The tasks of one round that got a node, and those that did not. -/
@[ext] structure SpeculationRound where
  /-- Those with a node, in the order in which they were considered. -/
  launches : List Launch := []
  /-- Those without. -/
  deferred : List TaskKey := []
deriving DecidableEq, Repr

/-- What the launches of a round look at. -/
structure Surroundings where
  /-- The attempts. -/
  graph : ExecutionGraph
  /-- The slots. -/
  view : ResourceView
  /-- The blocked nodes. -/
  slow : SlowNodes
  /-- The time. -/
  now : Instant

/-- The speculative execution of a job. -/
@[ext] structure Speculation where
  /-- Whether slow tasks get further attempts, and how many. -/
  settings : SpeculativeConfig
  /-- Which node is taken first. -/
  mode : LoadBalance
  /-- The tasks that wait for a node, in ascending order. -/
  deferred : List TaskKey := []
deriving DecidableEq

namespace Speculation

/-- The speculative execution that a configuration asks for. -/
def ofConfig (c : Config) : Speculation := { settings := c.speculative, mode := c.loadBalance }

/-- A task that may get one more attempt: it belongs to the current generation, is not finished and
has fewer active attempts than it may have. -/
def candidate? (s : Speculation) (g : ExecutionGraph) (key : TaskKey) : Option Task :=
  match g.get? key.vertex with
  | none => none
  | some v =>
    if v.generation = key.generation then
      (v.tasks[key.subtask]?).filter fun t =>
        !t.isFinished && decide (t.activeCount < s.settings.maxConcurrentExecutions)
    else none

/-- The node for one more attempt of a task, with the launches so far counted as active attempts. -/
def nodeFor? (s : Speculation) (around : Surroundings) (launches : List Launch) (key : TaskKey)
    (t : Task) : Option NodeId :=
  let own := launches.filter (·.task.vertex = key.vertex)
  let loads := nodeLoads around.view
    (around.graph.nodeCounts.addAll (launches.map (·.node)))
    ((around.graph.vertexNodeCounts key.vertex).addAll (own.map (·.node))) around.slow around.now
  selectNode loads { mode := s.mode, avoid := t.activeNodes }

/-- Considers one task. -/
def consider (s : Speculation) (around : Surroundings) (round : SpeculationRound) (key : TaskKey) :
    SpeculationRound :=
  match s.candidate? around.graph key with
  | none => round
  | some t =>
    match s.nodeFor? around round.launches key t with
    | some node => { round with launches := round.launches ++ [{ task := key, node }] }
    | none => { round with deferred := round.deferred ++ [key] }

/-- Considers tasks in their order. -/
def considerAll (s : Speculation) (around : Surroundings) (keys : List TaskKey) :
    SpeculationRound :=
  keys.foldl (s.consider around) {}

/-- The deferred tasks and those of the slow attempts, each once, in ascending order. -/
def keys (s : Speculation) (slow : List SlowAttempt) : List TaskKey :=
  ((s.deferred ++ slow.map fun a => TaskKey.ofAttempt a.id).mergeSort TaskKey.precedes).eraseDups

/-- Blocks the nodes of slow attempts and gives their tasks, and the deferred ones, one more attempt
each, where a node is free. -/
def react (s : Speculation) (slow : List SlowAttempt) (around : Surroundings) :
    Checked (List Launch × Speculation × SlowNodes) :=
  if s.settings.enabled then do
    let registry ←
      around.slow.blockAll (slow.map (·.node)) around.now s.settings.blockSlowNodeDuration
    let round := s.considerAll { around with slow := registry } (s.keys slow)
    pure (round.launches, { s with deferred := round.deferred }, registry)
  else pure ([], s, around.slow)

end Speculation

end AdaptiveBatch
