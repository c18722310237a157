import AdaptiveBatch.Cluster.Placement
import AdaptiveBatch.Execution.Vertex

/-! # The execution graph

The current generation of every vertex that has been started. Reports about attempts may come late:
one about an earlier generation, or about an attempt that has ended, is stray and changes nothing;
one about an attempt that never existed is an error.

* **`ExecutionGraph`** with **`ExecutionGraph.startGeneration`** and
  **`ExecutionGraph.addAttempt`**;
* **`ExecutionGraph.strayReason?`** — which reports are applied;
* **`ExecutionGraph.markRunning`**, **`ExecutionGraph.recordProgress`**,
  **`ExecutionGraph.finishAttempt`**, **`ExecutionGraph.failAttempt`**,
  **`ExecutionGraph.cancelAttempt`** — what an applied report does to its task. -/

namespace AdaptiveBatch

/-- A request that names something that never existed, or that is out of order. -/
inductive ExecutionError
  /-- The vertex has not been started. -/
  | unknownVertex (vertex : VertexId)
  /-- The vertex has no such task. -/
  | unknownSubtask (vertex : VertexId) (subtask : Nat)
  /-- There is no such attempt. -/
  | unknownAttempt (id : AttemptId)
  /-- The attempt has come too far for this step. -/
  | invalidTransition (id : AttemptId) (source target : AttemptStatus)
  /-- A vertex cannot run without tasks. -/
  | zeroParallelism (vertex : VertexId)
deriving DecidableEq, Repr

/-- The text reported for an error. -/
def ExecutionError.message : ExecutionError → String
  | .unknownVertex vertex => s!"vertex {vertex} has not been deployed"
  | .unknownSubtask vertex subtask => s!"vertex {vertex} has no subtask {subtask}"
  | .unknownAttempt id => s!"unknown attempt {id.text}"
  | .invalidTransition id source target =>
    s!"attempt {id.text} cannot move from {source.label} to {target.label}"
  | .zeroParallelism vertex => s!"vertex {vertex} must be deployed with parallelism of at least 1"

/-- Why a report is stray. -/
inductive StrayReason
  /-- The attempt belongs to an earlier generation than the current one. -/
  | superseded (current : Nat)
  /-- The attempt was canceled. -/
  | canceled
  /-- Another attempt has won the task. -/
  | alreadyWon
  /-- The attempt has reported its end. -/
  | alreadyTerminated
deriving DecidableEq, Repr

/-- The reason in words. -/
def StrayReason.message : StrayReason → String
  | .superseded current => s!"superseded by generation {current}"
  | .canceled => "attempt was canceled"
  | .alreadyWon => "task already finished"
  | .alreadyTerminated => "attempt already terminated"

/-- What became of a report. -/
inductive Reported (α : Type)
  /-- It was applied, with this result. -/
  | applied (a : α)
  /-- It was discarded. -/
  | stray (reason : StrayReason)
deriving DecidableEq, Repr

/-- The result of a first finish. -/
structure Win where
  /-- The rivals, now canceled. -/
  canceled : List AttemptId
  /-- Whether every task of the vertex is finished now. -/
  vertexFinished : Bool
deriving DecidableEq, Repr

/-- The result of a failure. -/
inductive Loss
  /-- Other attempts of the task are active. -/
  | siblingsRemain
  /-- No attempt of the task is active any more. -/
  | taskLost
deriving DecidableEq, Repr

/-- A new generation of a vertex. -/
structure GenerationStart where
  /-- Its number. -/
  generation : Nat
  /-- The active attempts of the generation before, now canceled. -/
  canceled : List AttemptId
deriving DecidableEq, Repr

/-- The current generation of every vertex that has been started. -/
@[ext] structure ExecutionGraph where
  /-- The generations by vertex. -/
  vertices : Std.ExtTreeMap VertexId VertexExecution := ∅
deriving DecidableEq

namespace ExecutionGraph

instance : EmptyCollection ExecutionGraph := ⟨{}⟩

instance : Inhabited ExecutionGraph := ⟨∅⟩

/-! ## Looking up -/

/-- The current generation of a vertex. -/
def get? (g : ExecutionGraph) (vertex : VertexId) : Option VertexExecution := g.vertices[vertex]?

/-- The empty graph `∅` has no vertex. -/
@[simp] theorem get?_empty (vertex : VertexId) : (∅ : ExecutionGraph).get? vertex = none :=
  Std.ExtTreeMap.getElem?_empty

/-- Inserting at `vertex` is seen at `vertex` only: `get? other` is `some v` there and unchanged
elsewhere. -/
theorem get?_insert (g : ExecutionGraph) (vertex other : VertexId) (v : VertexExecution) :
    ExecutionGraph.get? ⟨g.vertices.insert vertex v⟩ other =
      if vertex = other then some v else g.get? other := by
  simp [get?, Std.ExtTreeMap.getElem?_insert, Std.LawfulEqCmp.compare_eq_iff_eq]

/-- The current generations in ascending order of their vertices. -/
def toList (g : ExecutionGraph) : List VertexExecution := g.vertices.toList.map (·.2)

/-- The list of a graph consists of the generations that `get?` finds. -/
theorem mem_toList {g : ExecutionGraph} {v : VertexExecution} :
    v ∈ g.toList ↔ ∃ vertex, g.get? vertex = some v := by
  simp [toList, get?, List.mem_map, Std.ExtTreeMap.mem_toList_iff_getElem?_eq_some]

/-- Whether a vertex is started and every task is finished or holds a slot. -/
def isDeployed (g : ExecutionGraph) (vertex : VertexId) : Bool :=
  (g.get? vertex).any VertexExecution.isDeployed

/-- Whether a vertex is started and every task is finished. -/
def isFinished (g : ExecutionGraph) (vertex : VertexId) : Bool :=
  (g.get? vertex).any VertexExecution.isFinished

/-- A task of a vertex. -/
def task (g : ExecutionGraph) (vertex : VertexId) (subtask : Nat) : Except ExecutionError Task :=
  match g.get? vertex with
  | none => .error (.unknownVertex vertex)
  | some v =>
    match v.tasks[subtask]? with
    | none => .error (.unknownSubtask vertex subtask)
    | some t => .ok t

/-- The task that an identity of the current generation belongs to. -/
def taskOf? (g : ExecutionGraph) (id : AttemptId) : Option Task :=
  match g.get? id.vertex with
  | none => none
  | some v => if v.generation = id.generation then v.tasks[id.subtask]? else none

/-- The attempt with an identity of the current generation. -/
def attempt? (g : ExecutionGraph) (id : AttemptId) : Option Attempt :=
  (g.taskOf? id).bind (·.attempts[id.number]?)

/-- How many active attempts each node hosts. -/
def nodeCounts (g : ExecutionGraph) : NodeCounts :=
  .ofNodes ((g.toList.flatMap VertexExecution.activeAttempts).map (·.node))

/-- How many active attempts of a vertex each node hosts. -/
def vertexNodeCounts (g : ExecutionGraph) (vertex : VertexId) : NodeCounts :=
  .ofNodes (((g.get? vertex).elim [] VertexExecution.activeAttempts).map (·.node))

/-- The tasks of a vertex that need a slot, with the times at which they could be executed first. -/
def pendingTasks (g : ExecutionGraph) (vertex : VertexId) : List (Nat × Instant) :=
  ((g.get? vertex).elim [] VertexExecution.pendingTasks).map fun t => (t.subtask, t.createdAt)

/-! ## Changing tasks -/

/-- Changes the current generation of a vertex. -/
def modifyVertex (g : ExecutionGraph) (vertex : VertexId) (f : VertexExecution → VertexExecution) :
    ExecutionGraph :=
  match g.get? vertex with
  | none => g
  | some v => ⟨g.vertices.insert vertex (f v)⟩

/-- Under `modifyVertex vertex f` the map `f` is applied to the generation of `vertex`, if there is
one, and every other vertex is left alone. -/
theorem get?_modifyVertex (g : ExecutionGraph) (vertex other : VertexId)
    (f : VertexExecution → VertexExecution) :
    (g.modifyVertex vertex f).get? other =
      if vertex = other then (g.get? other).map f else g.get? other := by
  unfold modifyVertex
  by_cases h : vertex = other
  · subst h
    cases hv : g.get? vertex with
    | none => simp [hv]
    | some v => rw [get?_insert, if_pos rfl, if_pos rfl]; rfl
  · cases hv : g.get? vertex with
    | none => rw [if_neg h]
    | some v => rw [get?_insert, if_neg h, if_neg h]

/-- Changes a task in the current generation of a vertex. -/
def modifyTask (g : ExecutionGraph) (vertex : VertexId) (subtask : Nat) (f : Task → Task) :
    ExecutionGraph :=
  g.modifyVertex vertex fun v => { v with tasks := v.tasks.modify subtask f }

/-- Changes an attempt in the current generation of its vertex. -/
def modifyAttempt (g : ExecutionGraph) (id : AttemptId) (f : Attempt → Attempt) : ExecutionGraph :=
  g.modifyTask id.vertex id.subtask (·.modifyAttempt id.number f)

/-! ## Starting -/

/-- Replaces the generation of a vertex by fresh tasks; the active attempts of the old one are
canceled. -/
def startGeneration (g : ExecutionGraph) (vertex : VertexId) (parallelism : Nat) (now : Instant) :
    Except ExecutionError (GenerationStart × ExecutionGraph) :=
  if parallelism = 0 then .error (.zeroParallelism vertex)
  else
    let previous := g.get? vertex
    let generation := previous.elim 1 (·.generation + 1)
    let canceled := (previous.elim [] VertexExecution.activeAttempts).map (·.id)
    .ok ({ generation, canceled },
      ⟨g.vertices.insert vertex (.fresh vertex generation parallelism now)⟩)

/-- Adds an attempt to a task. -/
def addAttempt (g : ExecutionGraph) (vertex : VertexId) (subtask : Nat) (node : NodeId)
    (speculative : Bool) (now : Instant) : Except ExecutionError (AttemptId × ExecutionGraph) :=
  match g.get? vertex with
  | none => .error (.unknownVertex vertex)
  | some v =>
    match v.tasks[subtask]? with
    | none => .error (.unknownSubtask vertex subtask)
    | some t =>
      let id : AttemptId :=
        { vertex, subtask, generation := v.generation, number := t.attempts.length }
      let attempt : Attempt := { id, node, speculative, createdAt := now }
      .ok (id, g.modifyTask vertex subtask fun t => { t with attempts := t.attempts ++ [attempt] })

/-- A created attempt is handed to its node. -/
def markDeploying (g : ExecutionGraph) (id : AttemptId) :
    Except ExecutionError (Unit × ExecutionGraph) :=
  match g.attempt? id with
  | none => .error (.unknownAttempt id)
  | some a =>
    if a.status = .created then
      .ok ((), g.modifyAttempt id fun a => { a with status := .deploying })
    else .error (.invalidTransition id a.status .deploying)

/-! ## Reports -/

/-- Why a report about an attempt is discarded, if it is. -/
def strayReason? (g : ExecutionGraph) (id : AttemptId) :
    Except ExecutionError (Option StrayReason) :=
  match g.get? id.vertex with
  | none => .error (.unknownVertex id.vertex)
  | some v =>
    if id.generation < v.generation then .ok (some (.superseded v.generation))
    else match g.taskOf? id, g.attempt? id with
      | some t, some a => .ok <| match a.status with
        | .canceled => some .canceled
        | .finished => some .alreadyTerminated
        | .failed => some .alreadyTerminated
        | _ => if t.isFinished then some .alreadyWon else none
      | _, _ => .error (.unknownAttempt id)

/-- Applies a report to the task it names, unless it is stray. -/
def report {α : Type} (g : ExecutionGraph) (id : AttemptId) (change : Task → Task)
    (result : ExecutionGraph → α) : Except ExecutionError (Reported α × ExecutionGraph) :=
  match g.strayReason? id with
  | .error e => .error e
  | .ok (some reason) => .ok (.stray reason, g)
  | .ok none =>
    let g' := g.modifyTask id.vertex id.subtask change
    .ok (.applied (result g'), g')

/-- An attempt runs. -/
def markRunning (g : ExecutionGraph) (id : AttemptId) (now : Instant) :
    Except ExecutionError (Reported Unit × ExecutionGraph) :=
  g.report id (·.modifyAttempt id.number (·.run now)) fun _ => ()

/-- An attempt has read so many bytes. -/
def recordProgress (g : ExecutionGraph) (id : AttemptId) (bytes : Nat) :
    Except ExecutionError (Reported Unit × ExecutionGraph) :=
  g.report id (·.modifyAttempt id.number fun a => { a with inputBytes := some bytes }) fun _ => ()

/-- An attempt has finished: it wins its task, and its rivals are canceled. -/
def finishAttempt (g : ExecutionGraph) (id : AttemptId) (inputBytes outputBytes : Option Nat)
    (now : Instant) : Except ExecutionError (Reported Win × ExecutionGraph) :=
  g.report id (·.win id.number inputBytes outputBytes now) fun g' =>
    { canceled := ((g.taskOf? id).elim [] (·.rivals id.number)).map (·.id)
      vertexFinished := g'.isFinished id.vertex }

/-- An attempt has failed. -/
def failAttempt (g : ExecutionGraph) (id : AttemptId) (now : Instant) :
    Except ExecutionError (Reported Loss × ExecutionGraph) :=
  g.report id (·.modifyAttempt id.number (·.fail now)) fun g' =>
    if (g'.taskOf? id).any fun t => decide (0 < t.activeCount) then .siblingsRemain else .taskLost

/-- Cancels an attempt; tells whether it was active in an unfinished task. -/
def cancelAttempt (g : ExecutionGraph) (id : AttemptId) (now : Instant) :
    Except ExecutionError (Bool × ExecutionGraph) :=
  (g.report id (·.modifyAttempt id.number (·.cancel now)) fun _ => ()).map fun (outcome, g') =>
    (match outcome with
      | .applied _ => true
      | .stray _ => false, g')

end ExecutionGraph

end AdaptiveBatch
