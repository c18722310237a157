import AdaptiveBatch.Proofs.Execution.Reports
import AdaptiveBatch.Proofs.Scheduler.Outcomes
import AdaptiveBatch.Scheduler.Pass

/-! # Deployments and cancellations

The exact effects of the calls that change attempts and tell the backend about it.

* **`Scheduler.assign_eq`**, **`Scheduler.ask_eq`**, **`Scheduler.deploy_eq`** — one attempt of a
  task without a winner: it is added, and the backend is asked to start it;
* **`Scheduler.HasRoom`** — a node may take one more attempt of a vertex;
* **`Scheduler.restarted`**, **`Scheduler.ensures_restart`** — a new generation. -/

namespace AdaptiveBatch

/-- An attempt that is handed to its node. -/
def Attempt.deploying (id : AttemptId) (node : NodeId) (speculative : Bool) (now : Instant) :
    Attempt :=
  { id, node, status := .deploying, speculative, createdAt := now }

/-- The identity of the next attempt of a task. -/
def VertexExecution.nextId (v : VertexExecution) (vertex : VertexId) (subtask : Nat) (t : Task) :
    AttemptId :=
  { vertex, subtask, generation := v.generation, number := t.attempts.length }

/-- The lines that the ledger gets when the attempts `ids` are given up, the latest first. -/
theorem Backend.calls_cancelAll (b : Backend) (ids : List AttemptId) :
    (b.cancelAll ids).calls = (ids.map BackendCall.cancel).reverse ++ b.calls := by
  unfold cancelAll
  generalize b.calls = calls
  show ids.foldl (fun calls id => .cancel id :: calls) calls = _
  induction ids generalizing calls with
  | nil => rfl
  | cons id rest ih => simp [ih]

namespace Scheduler

open Scheduling ExecutionGraph

variable {s : Scheduler} {v : VertexExecution} {t : Task} {vertex : VertexId} {subtask : Nat}
  {node : NodeId} {speculative : Bool} {now : Instant}

/-! ## Deployments -/

/-- The state with one more attempt. -/
def assigned (s : Scheduler) (id : AttemptId) (node : NodeId) (speculative : Bool)
    (now : Instant) : Scheduler :=
  { s with graph := s.graph.push (.deploying id node speculative now) }

/-- The state with one more attempt and the answer of the backend; a refused attempt has failed. -/
def placed (s : Scheduler) (id : AttemptId) (node : NodeId) (speculative : Bool)
    (now : Instant) : Scheduler :=
  { s with
    graph := s.graph.push <|
      if (s.backend.deploy id node now).1 then .deploying id node speculative now
      else (Attempt.deploying id node speculative now).fail now
    backend := (s.backend.deploy id node now).2 }

/-- A node of the view that is not blocked and hosts fewer attempts of the vertex than it has
slots. -/
structure HasRoom (s : Scheduler) (vertex : VertexId) (node : NodeId) (now : Instant) : Prop where
  /-- The node is in the view. -/
  mem_nodes : node ∈ s.view.nodes
  /-- It is not blocked. -/
  not_blocked : s.slow.isBlocked node now = false
  /-- It has a slot without an attempt of the vertex. -/
  count_lt : (s.graph.vertexNodeCounts vertex).on node < s.view.slotsOn node

/-- The identity `nextId` is the next one of its task in the graph. -/
theorem isNext_nextId (hv : s.graph.get? vertex = some v) (ht : v.tasks[subtask]? = some t) :
    s.graph.IsNext (v.nextId vertex subtask t) :=
  ⟨t, taskOf?_eq_some_iff.2 ⟨v, hv, rfl, ht⟩, rfl⟩

/-- A step `f` of the attempt that was just added is made before it is added. -/
theorem modifyAttempt_push {g : ExecutionGraph} {a : Attempt} (h : g.IsNext a.id)
    {f : Attempt → Attempt} (hf : (f a).id = a.id) :
    (g.push a).modifyAttempt a.id f = g.push (f a) := by
  obtain ⟨t, ht, hnumber⟩ := h
  obtain ⟨v, hv, -, htask⟩ := taskOf?_eq_some_iff.1 ht
  unfold push modifyAttempt
  rw [modifyTask_modifyTask, hf]
  apply modifyTask_congr
  intro w t' hw ht'
  obtain ⟨rfl, rfl⟩ := task_unique hv htask hw ht'
  simp [Task.push, Task.modifyAttempt, hnumber, List.modify_eq_take_drop]

/-- Assigning a task to a node adds the attempt of `nextId`, already handed to the node. -/
theorem assign_eq (hv : s.graph.get? vertex = some v) (ht : v.tasks[subtask]? = some t) :
    assign vertex subtask node speculative now s =
      .ok (v.nextId vertex subtask t)
        (s.assigned (v.nextId vertex subtask t) node speculative now) := by
  have hnext := isNext_nextId hv ht
  -- The attempt is created first and marked as handed over then; together that is one push.
  let created : Attempt :=
    { id := v.nextId vertex subtask t, node, speculative, createdAt := now }
  have hadd : s.graph.addAttempt vertex subtask node speculative now =
      .ok (v.nextId vertex subtask t, s.graph.push created) := by
    unfold addAttempt
    rw [hv]
    simp only [ht]
    rfl
  have hmark : (s.graph.push created).markDeploying (v.nextId vertex subtask t) =
      .ok ((), s.graph.push (.deploying (v.nextId vertex subtask t) node speculative now)) := by
    unfold markDeploying
    rw [attempt?_push (a := created) hnext, if_pos rfl]
    show (if AttemptStatus.created = .created then _ else _) = _
    rw [if_pos rfl]
    exact congrArg (fun g => Except.ok ((), g))
      (modifyAttempt_push (a := created) hnext (f := fun a => { a with status := .deploying }) rfl)
  rw [eq_ok_iff]
  unfold assign
  rw [ensures_bind, ensures_onGraph_of_ok hadd, ensures_bind, ensures_onGraph_of_ok hmark,
    ensures_pure]
  exact ⟨rfl, rfl⟩

/-- The attempt that the backend is asked to start is awaited, if its task has no `winner`. -/
theorem awaits_assigned (hv : s.graph.get? vertex = some v) (ht : v.tasks[subtask]? = some t)
    (hw : t.winner = none) :
    (s.assigned (v.nextId vertex subtask t) node speculative now).graph.Awaits
      (v.nextId vertex subtask t) := by
  refine ⟨t.push (.deploying (v.nextId vertex subtask t) node speculative now), ?_, ?_, hw⟩
  · show (s.graph.push _).taskOf? _ = _
    unfold ExecutionGraph.push
    rw [taskOf?_modifyTask, if_pos ⟨rfl, rfl⟩, taskOf?_eq_some_iff.2 ⟨v, hv, rfl, ht⟩]
    rfl
  · exact Task.isActive_push.2 (Or.inr ⟨rfl, rfl⟩)

/-- Asking the backend for the attempt of `nextId` leads to `s.placed`, and returns the identity if
the backend accepts. -/
theorem ask_eq (hv : s.graph.get? vertex = some v) (ht : v.tasks[subtask]? = some t)
    (hw : t.winner = none) :
    ask (v.nextId vertex subtask t) node now
        (s.assigned (v.nextId vertex subtask t) node speculative now) =
      .ok (if (s.backend.deploy (v.nextId vertex subtask t) node now).1 then
          some (v.nextId vertex subtask t) else none)
        (s.placed (v.nextId vertex subtask t) node speculative now) := by
  rw [eq_ok_iff]
  unfold ask
  rw [ensures_bind, ensures_get, ensures_bind, ensures_modify]
  show (if (s.backend.deploy (v.nextId vertex subtask t) node now).1 = true then _ else _ :
    Scheduling (Option AttemptId)).Ensures _ _ _
  cases haccepted : (s.backend.deploy (v.nextId vertex subtask t) node now).1 with
  | true =>
    rw [if_pos rfl, ensures_pure, if_pos rfl]
    refine ⟨rfl, ?_⟩
    rw [placed, haccepted, if_pos rfl]
    rfl
  | false =>
    -- The refused attempt fails at once; again that is one push.
    have hstep := modifyAttempt_push
      (a := Attempt.deploying (v.nextId vertex subtask t) node speculative now)
      (isNext_nextId hv ht) (f := (·.fail now)) rfl
    rw [if_neg Bool.false_ne_true, ensures_bind,
      ensures_onGraph_of_ok (report_of_awaits (awaits_assigned hv ht hw) _ _), ensures_pure,
      if_neg Bool.false_ne_true]
    refine ⟨rfl, ?_⟩
    rw [placed, haccepted, if_neg Bool.false_ne_true, ← hstep]
    rfl

/-- A deployment leads to `s.placed`, with one more attempt; it gives its identity if the backend
accepts it. -/
theorem deploy_eq (hv : s.graph.get? vertex = some v) (ht : v.tasks[subtask]? = some t)
    (hw : t.winner = none) : deploy vertex subtask node speculative now s =
      .ok (if (s.backend.deploy (v.nextId vertex subtask t) node now).1 then
          some (v.nextId vertex subtask t) else none)
        (s.placed (v.nextId vertex subtask t) node speculative now) := by
  show EStateM.bind _ _ s = _
  rw [EStateM.bind, assign_eq hv ht]
  exact ask_eq hv ht hw

/-! ## New generations -/

/-- The state with a new generation of a vertex; the attempts of the old one are stopped. -/
def restarted (s : Scheduler) (vertex : VertexId) (parallelism : Nat) (now : Instant) : Scheduler :=
  { s with graph := s.graph.regenerate vertex parallelism now }.cancelRemote
    (s.graph.activeIdsOf vertex)

/-- The state with the first generation of a vertex, whose inputs are known. -/
def started (s : Scheduler) (v : JobVertex) (inputs : List InputStatistics) (id : VertexId)
    (now : Instant) : Scheduler :=
  { s with
    graph := s.graph.regenerate id (s.sizing.decideWithin v inputs (some s.view)) now
    controller := s.controller.track id (s.sizing.requirement v inputs)
      (s.sizing.decideWithin v inputs (some s.view)) }

variable {E : Scheduler → Prop}

/-- Starting a vertex over fails for a parallelism of `0`; otherwise it leads to `s.restarted`. -/
theorem ensures_restart {Q : Unit → Scheduler → Prop} {parallelism : Nat}
    (hzero : parallelism = 0 → E s)
    (hpos : parallelism ≠ 0 → Q () (s.restarted vertex parallelism now)) :
    (restart vertex parallelism now).Ensures s Q E := by
  unfold restart
  rw [ensures_bind, ensures_onGraph, startGeneration_eq]
  split
  · next h =>
    -- A generation without tasks is refused, before anything is changed.
    constructor
    · intro _ _ heq
      cases heq
    · intro _ _
      exact hzero h
  · next h =>
    constructor
    · intro start g heq
      cases heq
      rw [ensures_modify]
      exact hpos h
    · intro _ heq
      cases heq

/-- A vertex of the job starts and leads to `s.started`, unless what its inputs have produced cannot
be added up, or it would run without tasks. -/
theorem ensures_startVertex {Q : Unit → Scheduler → Prop} {id : VertexId}
    (hnone : s.job.get? id = none → Q () s)
    (herror : ∀ v, s.job.get? id = some v → (∀ inputs, s.inputStatistics id = .ok inputs →
      s.sizing.decideWithin v inputs (some s.view) = 0) → E s)
    (hsome : ∀ v inputs, s.job.get? id = some v → s.inputStatistics id = .ok inputs →
      s.sizing.decideWithin v inputs (some s.view) ≠ 0 → Q () (s.started v inputs id now)) :
    (startVertex now id).Ensures s Q E := by
  unfold startVertex
  rw [ensures_bind, ensures_get]
  cases hv : s.job.get? id with
  | none => exact hnone hv
  | some v =>
    show (checked (s.inputStatistics id) >>= _).Ensures s Q E
    rw [ensures_bind, ensures_checked]
    constructor
    · intro inputs hinputs
      rw [ensures_bind, ensures_onGraph, startGeneration_eq]
      split
      · next hzero =>
        constructor
        · intro _ _ heq
          cases heq
        · intro _ _
          apply herror v hv
          intro inputs' hinputs'
          rw [hinputs] at hinputs'
          cases hinputs'
          exact hzero
      · next h =>
        constructor
        · intro start g heq
          cases heq
          rw [ensures_modify]
          exact hsome v inputs hv hinputs h
        · intro _ heq
          cases heq
    · intro o ho
      apply herror v hv
      intro inputs hinputs
      rw [ho] at hinputs
      cases hinputs

end Scheduler

end AdaptiveBatch
