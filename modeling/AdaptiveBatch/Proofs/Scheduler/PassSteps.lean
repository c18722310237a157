import AdaptiveBatch.Proofs.Scheduler.Steps

/-! # Steps of passes

A pass does two things only: it gives a slot to a task that needs one, and it starts a vertex that
is ready. So most of the state is left alone by passes, and where neither can be done, no pass does
anything.

* **`Backend.refusals`** — the number of attempts that were refused so far;
* **`Scheduler.PassStep`**, **`Scheduler.PassSteps`** — one thing a pass does, and any number of
  them;
* **`Scheduler.PassSteps.frame`** — what passes leave alone;
* **`Scheduler.Exhausted`**, **`Scheduler.Exhausted.eq`** — there is nothing left to place or to
  start. -/

namespace AdaptiveBatch

/-! ## Refusals -/

/-- Whether an attempt was refused. -/
def BackendCall.isRefusal : BackendCall → Bool
  | .deploy _ _ _ accepted => !accepted
  | .cancel _ => false

/-- The number of attempts that the backend has refused. -/
def Backend.refusals (b : Backend) : Nat := b.calls.countP BackendCall.isRefusal

/-- Asking the backend for an attempt raises the number of refusals by one if it is refused. -/
theorem Backend.refusals_deploy (b : Backend) (id : AttemptId) (node : NodeId) (now : Instant) :
    (b.deploy id node now).2.refusals =
      b.refusals + if (b.deploy id node now).1 = true then 0 else 1 := by
  unfold refusals deploy
  rw [List.countP_cons]
  cases b.accepts b.deployCount <;> rfl

namespace Scheduler

open ExecutionGraph

variable {s t : Scheduler} {now : Instant} {vertex : VertexId} {k : Nat}

/-! ## Steps -/

/-- One step of a pass. -/
inductive PassStep (now : Instant) : Scheduler → Scheduler → Prop
  /-- A task that needs a slot gets one. -/
  | place {s : Scheduler} {v : VertexExecution} {task : Task} {vertex : VertexId} {subtask : Nat}
      {node : NodeId} (executing : s.isExecuting = true) (live : s.status.isTerminal = false)
      (vertex_eq : s.graph.get? vertex = some v) (task_eq : v.tasks[subtask]? = some task)
      (pending : task.isPending = true) (room : s.HasRoom vertex node now) :
      PassStep now s (s.placed (v.nextId vertex subtask task) node false now)
  /-- A vertex starts that is ready. -/
  | start {s : Scheduler} {v : JobVertex} {inputs : List InputStatistics} {id : VertexId}
      (executing : s.isExecuting = true) (live : s.status.isTerminal = false)
      (ready : id ∈ s.readyVertices) (vertex_eq : s.job.get? id = some v)
      (inputs_eq : s.inputStatistics id = .ok inputs)
      (pos : s.sizing.decideWithin v inputs (some s.view) ≠ 0) :
      PassStep now s (s.started v inputs id now)

/-- Any number of steps of passes. -/
abbrev PassSteps (now : Instant) : Scheduler → Scheduler → Prop :=
  Relation.ReflTransGen (PassStep now)

/-- The list `s.readyVertices` names the vertices of the order that are ready and have not
started. -/
theorem mem_readyVertices {id : VertexId} : id ∈ s.readyVertices ↔
    id ∈ s.order ∧ s.graph.get? id = none ∧ s.isReady id = true := by
  rw [readyVertices, List.mem_filter, Bool.and_eq_true, Option.isNone_iff_eq_none]

/-- A step of a pass is a step of a call. -/
theorem PassStep.step (h : PassStep now s t) : Step now s t := by
  cases h with
  | place executing live vertex_eq task_eq pending room =>
    refine .place executing live vertex_eq task_eq (Task.isPending_iff.1 pending).1 ?_ room
    rw [Task.activeCount_of_isPending pending]
    exact Nat.one_pos
  | start executing live ready vertex_eq inputs_eq pos =>
    obtain ⟨hmem, hnew, hready⟩ := mem_readyVertices.1 ready
    exact .start executing live hmem hnew hready vertex_eq inputs_eq pos

/-- Passes are made of steps of a call. -/
theorem PassSteps.steps (h : PassSteps now s t) : Steps now s t :=
  Relation.ReflTransGen.mono (fun _ _ hstep => hstep.step) _ _ h

/-- Passes leave `s.slow` as it is, so their steps are steady. -/
theorem PassSteps.steady (h : PassSteps now s t) : SteadySteps now s t := by
  refine Relation.ReflTransGen.mono (fun _ _ hstep => ⟨hstep.step, ?_⟩) _ _ h
  cases hstep <;> rfl

/-- What every step of a pass keeps is kept by any number of them: `J` is an invariant of
`PassSteps`. -/
theorem PassSteps.keeps {J : Scheduler → Prop} (step : ∀ s t, PassStep now s t → J s → J t)
    (h : PassSteps now s t) (hs : J s) : J t := by
  induction h with
  | refl => exact hs
  | tail _ hstep ih => exact step _ _ hstep ih

/-- A pass changes the `graph`, tells the `backend`, and tracks in the `controller` the vertices
that it starts; the rest of the state stays. -/
theorem PassSteps.frame (h : PassSteps now s t) : t = { s with
    graph := t.graph
    backend := t.backend
    controller := { s.controller with
      requirements := t.controller.requirements
      current := t.controller.current } } := by
  induction h with
  | refl => rfl
  | @tail t u _ hstep ih =>
    have hu : u = { t with
        graph := u.graph
        backend := u.backend
        controller := { t.controller with
          requirements := u.controller.requirements
          current := u.controller.current } } := by
      cases hstep <;> rfl
    rw [ih] at hu
    exact hu

/-- A job runs after passes iff it did before. -/
theorem PassSteps.isExecuting_eq (h : PassSteps now s t) : t.isExecuting = s.isExecuting :=
  (congrArg isExecuting h.frame :)

/-- Passes leave the `status` of a job. -/
theorem PassSteps.status_eq (h : PassSteps now s t) : t.status = s.status :=
  (congrArg status h.frame :)

/-- Passes change neither the settings nor the job. -/
theorem PassSteps.sameJob (h : PassSteps now s t) : s.SameJob t :=
  ⟨(congrArg config h.frame :), (congrArg job h.frame :), (congrArg order h.frame :)⟩

/-- Refusals are never taken back: passes can only raise their number. -/
theorem PassSteps.refusals_le (h : PassSteps now s t) :
    s.backend.refusals ≤ t.backend.refusals := by
  refine h.keeps (J := fun t => s.backend.refusals ≤ t.backend.refusals) ?_ (Nat.le_refl _)
  intro t u hstep ht
  cases hstep with
  | place =>
    rw [placed, Backend.refusals_deploy]
    exact Nat.le_add_right_of_le ht
  | start => exact ht

/-- Vertices that have started stay so: passes can only lower the number of those that are
`unstarted`. -/
theorem PassSteps.unstarted_le (h : PassSteps now s t) : t.unstarted ≤ s.unstarted := by
  refine h.keeps (J := fun t => t.unstarted ≤ s.unstarted) ?_ (Nat.le_refl _)
  intro t u hstep ht
  refine Nat.le_trans ?_ ht
  cases hstep with
  | place =>
    refine List.countP_mono_left fun id _ hnone => ?_
    rw [← Option.not_isSome, Bool.not_eq_true'] at hnone ⊢
    rw [← hnone]
    exact (isSome_get?_modifyTask id).symm
  | start =>
    refine List.countP_mono_left fun id _ hnone => ?_
    rw [← Option.not_isSome, Bool.not_eq_true'] at hnone ⊢
    rw [show (Scheduler.graph _).get? id = _ from get?_regenerate _ _] at hnone
    split at hnone
    · cases hnone
    · exact hnone

/-! ## Nothing left -/

/-- A task needs a slot. -/
def Waits (s : Scheduler) (vertex : VertexId) (k : Nat) : Prop :=
  ∃ task ∈ s.graph.taskAt? vertex k, task.isPending = true

/-- No node has room for the vertex. -/
def Full (s : Scheduler) (vertex : VertexId) (now : Instant) : Prop :=
  ∀ node, ¬s.HasRoom vertex node now

/-- There is nothing left to place or to start. -/
structure Exhausted (s : Scheduler) (now : Instant) : Prop where
  /-- No node has room for a task that needs a slot. -/
  full : ∀ vertex k, s.Waits vertex k → s.Full vertex now
  /-- Every vertex that is ready has started. -/
  idle : s.readyVertices = []

/-- Where nothing is left to place or to start, no pass does anything: `t = s`. -/
theorem Exhausted.eq (h : s.Exhausted now) (hpass : PassSteps now s t) : t = s := by
  rcases Relation.ReflTransGen.cases_head hpass with rfl | ⟨u, hstep, -⟩
  · rfl
  · exfalso
    cases hstep with
    | place executing live vertex_eq task_eq pending room =>
      exact h.full _ _ ⟨_, taskAt?_eq_some_iff.2 ⟨_, vertex_eq, task_eq⟩, pending⟩ _ room
    | start executing live ready =>
      rw [h.idle] at ready
      exact List.not_mem_nil ready

end Scheduler

end AdaptiveBatch
