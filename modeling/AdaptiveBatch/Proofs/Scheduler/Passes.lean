import AdaptiveBatch.Proofs.Cluster.Placement
import AdaptiveBatch.Proofs.Scheduler.PassSteps

/-! # Passes are steps, and leave nothing behind

A pass works through lists that were made when it began: the tasks that need a slot, with counts of
the attempts on every node, and the vertices that are ready. In both cases an invariant of the loop
says that the rest of the list still is what it was made to be. When the backend refuses nothing,
every task that was listed ends with a slot, or without a node that has room for its vertex. Every
pass but the last starts a vertex, so the number of vertices that have not started bounds the
passes.

* **`Scheduler.Placing`** — the invariant of the loops that place tasks;
* **`Scheduler.ensures_placePending`**, **`Scheduler.ensures_startReady`**,
  **`Scheduler.ensures_passes`** — the parts of a pass;
* **`Scheduler.ensures_schedule_exhausted`**, **`Scheduler.ensures_schedule`** — passes are steps,
  and leave nothing behind. -/

namespace AdaptiveBatch.Scheduler

open Scheduling ExecutionGraph

variable {s t u : Scheduler} {now : Instant} {vertex : VertexId} {k : Nat} {E : Scheduler → Prop}

/-! ## Placing -/

/-- The counts are those of the attempts of the vertex. -/
def Occupancy.Exact (o : Occupancy) (s : Scheduler) (vertex : VertexId) : Prop :=
  ∀ node, o.own.on node = (s.graph.vertexNodeCounts vertex).on node

/-- Placing the attempt `id` changes its task only. -/
theorem taskAt?_placed {id : AttemptId} {node : NodeId} {speculative : Bool}
    (h : ¬(id.vertex = vertex ∧ id.subtask = k)) :
    (s.placed id node speculative now).graph.taskAt? vertex k = s.graph.taskAt? vertex k := by
  unfold placed push
  split <;> exact (taskAt?_modifyTask vertex k).trans (if_neg h)

/-- The task of an attempt that the backend accepts `Waits` for no slot any more. -/
theorem not_waits_placed {v : VertexExecution} {task : Task} {node : NodeId} {speculative : Bool}
    (haccepted : (s.backend.deploy (v.nextId vertex k task) node now).1 = true) :
    ¬(s.placed (v.nextId vertex k task) node speculative now).Waits vertex k := by
  rintro ⟨after, hafter, hpending⟩
  -- The last attempt of the task is the new one, and it is active.
  have hgraph : (s.placed (v.nextId vertex k task) node speculative now).graph =
      s.graph.push (.deploying (v.nextId vertex k task) node speculative now) := by
    rw [placed, haccepted, if_pos rfl]
  rw [hgraph, push, taskAt?_modifyTask, if_pos ⟨rfl, rfl⟩] at hafter
  obtain ⟨before, -, rfl⟩ := Option.map_eq_some_iff.1 hafter
  obtain ⟨a, ha, hactive⟩ : (before.push (.deploying (v.nextId vertex k task) node speculative
    now)).IsActive before.attempts.length := Task.isActive_push.2 (Or.inr ⟨rfl, rfl⟩)
  have hmem := Task.mem_activeAttempts.2 ⟨List.mem_of_getElem? ha, hactive⟩
  rw [(Task.isPending_iff.1 hpending).2] at hmem
  exact List.not_mem_nil hmem

/-- The count of a node grows by one where the backend accepts the attempt, and no other count
changes. -/
theorem on_vertexNodeCounts_placed {v : VertexExecution} {task : Task} {other : VertexId}
    {node : NodeId} {speculative : Bool} (hv : s.graph.get? vertex = some v)
    (ht : v.tasks[k]? = some task) (n : NodeId) :
    ((s.placed (v.nextId vertex k task) node speculative now).graph.vertexNodeCounts other).on n =
      (s.graph.vertexNodeCounts other).on n +
        if vertex = other ∧ (s.backend.deploy (v.nextId vertex k task) node now).1 = true ∧ node = n
        then 1 else 0 := by
  unfold placed
  cases (s.backend.deploy (v.nextId vertex k task) node now).1 with
  | true => exact on_vertexNodeCounts_push (isNext_nextId hv ht) other n
  | false => exact on_vertexNodeCounts_push (isNext_nextId hv ht) other n

/-- The nodes fill up, and never empty: what is `Full` for a vertex stays so when an attempt is
placed. -/
theorem Full.placed {v : VertexExecution} {task : Task} {other : VertexId} {node : NodeId}
    {speculative : Bool} (h : s.Full other now) (hv : s.graph.get? vertex = some v)
    (ht : v.tasks[k]? = some task) :
    (s.placed (v.nextId vertex k task) node speculative now).Full other now := by
  intro n hroom
  refine h n ⟨hroom.mem_nodes, hroom.not_blocked, Nat.lt_of_le_of_lt ?_ hroom.count_lt⟩
  rw [on_vertexNodeCounts_placed hv ht]
  exact Nat.le_add_right _ _

/-- Where the counts are `Exact`, a node that is chosen by `nodeFor?` has room. -/
theorem hasRoom_of_nodeFor? {o : Occupancy} {node : NodeId} (hexact : o.Exact s vertex)
    (h : s.nodeFor? o now = some node) : s.HasRoom vertex node now := by
  obtain ⟨hmem, hblocked, hcount⟩ := selectNode_nodeLoads h
  rw [hexact node] at hcount
  exact ⟨hmem, hblocked, hcount⟩

/-- Where the counts are `Exact` and no node is chosen, none has room. -/
theorem full_of_nodeFor? {o : Occupancy} (hexact : o.Exact s vertex)
    (h : s.nodeFor? o now = none) : s.Full vertex now := by
  intro node hroom
  have hfull := selectNode_nodeLoads_eq_none_iff.1 h node hroom.mem_nodes hroom.not_blocked
  rw [hexact node] at hfull
  exact Nat.not_lt.2 hfull hroom.count_lt

/-- The state while tasks are placed, of which some are still to come. -/
structure Placing (now : Instant) (s : Scheduler) (rest : List (VertexId × Nat)) (t : Scheduler) :
    Prop where
  /-- It has come so far by steps. -/
  passing : PassSteps now s t
  /-- Attempts may be started. -/
  executing : t.isExecuting = true
  /-- The job has not ended. -/
  live : t.status.isTerminal = false
  /-- No task is to come twice. -/
  nodup : rest.Nodup
  /-- What is to come still needs a slot. -/
  waits : ∀ p ∈ rest, t.Waits p.1 p.2
  /-- Unless an attempt was refused, what needs a slot is to come, or no node has room for it. -/
  complete : t.backend.refusals = s.backend.refusals → ∀ vertex k, t.Waits vertex k →
    (vertex, k) ∈ rest ∨ t.Full vertex now

/-- Placing one task, `k`, keeps the counts `Exact`, and leaves the `rest` to come. -/
theorem Placing.placeTask {rest : List (VertexId × Nat)} {o : Occupancy}
    (h : Placing now s ((vertex, k) :: rest) t) (hexact : o.Exact t vertex) :
    (placeTask vertex now o k).Ensures t (fun o u => Placing now s rest u ∧ o.Exact u vertex) E := by
  obtain ⟨hfirst, hnodup⟩ := List.nodup_cons.1 h.nodup
  obtain ⟨task, htask, hpending⟩ := h.waits (vertex, k) List.mem_cons_self
  obtain ⟨v, hv, ht⟩ := taskAt?_eq_some_iff.1 htask
  have hrest (p : VertexId × Nat) (hp : p ∈ rest) : ¬(vertex = p.1 ∧ k = p.2) := by
    rintro ⟨rfl, rfl⟩
    exact hfirst hp
  unfold Scheduler.placeTask
  rw [ensures_bind, ensures_get]
  cases hnode : t.nodeFor? o now with
  | none =>
    -- Nothing changes, and this task is one for which no node has room.
    refine ⟨⟨h.passing, h.executing, h.live, hnodup,
      fun p hp => h.waits p (List.mem_cons_of_mem _ hp), ?_⟩, hexact⟩
    intro hsame w i hwait
    rcases h.complete hsame w i hwait with hmem | hfull
    · rcases List.mem_cons.1 hmem with heq | hmem
      · obtain ⟨rfl, rfl⟩ := Prod.mk.inj heq
        exact Or.inr (full_of_nodeFor? hexact hnode)
      · exact Or.inl hmem
    · exact Or.inr hfull
  | some node =>
    -- The node has room by the counts that were kept, and these are the counts of the graph.
    have hroom := hasRoom_of_nodeFor? hexact hnode
    have hstep : PassStep now t (t.placed (v.nextId vertex k task) node false now) :=
      .place h.executing h.live hv ht hpending hroom
    have hplacing : Placing now s rest (t.placed (v.nextId vertex k task) node false now) := by
      refine ⟨h.passing.tail hstep, h.executing, h.live, hnodup, ?_, ?_⟩
      · intro p hp
        obtain ⟨other, hother, hpend⟩ := h.waits p (List.mem_cons_of_mem _ hp)
        exact ⟨other, (taskAt?_placed (hrest p hp)).trans hother, hpend⟩
      · intro hsame w i hwait
        -- The attempt was not refused, so its task has a slot now.
        have hle := h.passing.refusals_le
        rw [placed, Backend.refusals_deploy] at hsame
        have haccepted : (t.backend.deploy (v.nextId vertex k task) node now).1 = true := by
          by_contra hrefused
          rw [if_neg hrefused] at hsame
          omega
        rw [if_pos haccepted] at hsame
        have hne : ¬(vertex = w ∧ k = i) := by
          rintro ⟨rfl, rfl⟩
          exact not_waits_placed haccepted hwait
        obtain ⟨other, hother, hpend⟩ := hwait
        rw [taskAt?_placed hne] at hother
        rcases h.complete hsame w i ⟨other, hother, hpend⟩ with hmem | hfull
        · rcases List.mem_cons.1 hmem with heq | hmem
          · obtain ⟨rfl, rfl⟩ := Prod.mk.inj heq
            exact absurd ⟨rfl, rfl⟩ hne
          · exact Or.inl hmem
        · exact Or.inr (hfull.placed hv ht)
    show (deploy vertex k node false now >>= _).Ensures t _ _
    rw [ensures_bind, ensures_of_eq_ok (deploy_eq hv ht (Task.isPending_iff.1 hpending).1)]
    cases haccepted : (t.backend.deploy (v.nextId vertex k task) node now).1 with
    | true =>
      -- An accepted attempt takes a slot, and the kept count grows with it.
      refine ⟨hplacing, ?_⟩
      intro n
      rw [on_vertexNodeCounts_placed hv ht, haccepted, ← hexact n]
      simp [Occupancy.bump, NodeCounts.on_bump]
    | false =>
      -- A refused attempt has failed at once, so neither count changes.
      refine ⟨hplacing, ?_⟩
      intro n
      rw [on_vertexNodeCounts_placed hv ht, haccepted, ← hexact n]
      simp

/-- The tasks of lists by vertex, one after the other. -/
def listed (waiting : List (VertexId × List Nat)) : List (VertexId × Nat) :=
  waiting.flatMap fun w => w.2.map (w.1, ·)

/-- A task is listed iff one of the lists by vertex has its index. -/
theorem mem_listed {waiting : List (VertexId × List Nat)} :
    (vertex, k) ∈ listed waiting ↔ ∃ ks, (vertex, ks) ∈ waiting ∧ k ∈ ks := by
  unfold listed
  simp only [List.mem_flatMap, List.mem_map, Prod.mk.injEq]
  constructor
  · rintro ⟨⟨_, ks⟩, hw, i, hi, rfl, rfl⟩
    exact ⟨ks, hw, hi⟩
  · rintro ⟨ks, hw, hk⟩
    exact ⟨(vertex, ks), hw, k, hk, rfl, rfl⟩

/-- The tasks `ks` of one vertex are placed, and those of the other vertices are still to come. -/
theorem Placing.placeTasks {all : NodeCounts} {waiting : List (VertexId × List Nat)}
    {ks : List Nat} (h : Placing now s (listed ((vertex, ks) :: waiting)) t) :
    (placeTasks now all (vertex, ks)).Ensures t (fun _ => Placing now s (listed waiting)) E := by
  unfold Scheduler.placeTasks
  rw [ensures_bind, ensures_get, ensures_bind]
  exact (Ensures.foldlM
    (fun rest o u => Placing now s (rest.map (vertex, ·) ++ listed waiting) u ∧ o.Exact u vertex)
    (fun k rest o u hu => hu.1.placeTask hu.2) ks _ t ⟨h, fun _ => rfl⟩).mono
    (fun _ _ hu => hu.1) fun _ hu => hu

/-- The waiting tasks of a vertex have different indices `subtask`. -/
theorem nodup_pendingSubtasks {v : VertexExecution} (h : v.WellFormed vertex) :
    (v.pendingTasks.map (·.subtask)).Nodup := by
  have hall : (v.tasks.map (·.subtask)).Nodup := by
    rw [List.nodup_iff_pairwise_ne, List.pairwise_iff_getElem]
    intro i j hi hj hij heq
    rw [List.length_map] at hi hj
    rw [List.getElem_map, List.getElem_map,
      (h.task i _ (List.getElem?_eq_getElem hi)).subtask_eq,
      (h.task j _ (List.getElem?_eq_getElem hj)).subtask_eq] at heq
    exact Nat.ne_of_lt hij heq
  exact hall.sublist (List.filter_sublist.map _)

/-- The list `s.waitingTasks` has, for every vertex that has started, the indices of its pending
tasks. -/
theorem mem_waitingTasks {ks : List Nat} (h : s.graph.WellFormed) :
    (vertex, ks) ∈ s.waitingTasks ↔
      ∃ v, s.graph.get? vertex = some v ∧ ks = v.pendingTasks.map (·.subtask) := by
  unfold waitingTasks
  rw [List.mem_map]
  constructor
  · rintro ⟨v, hmem, heq⟩
    obtain ⟨rfl, rfl⟩ := Prod.mk.inj heq
    obtain ⟨other, hv⟩ := mem_toList.1 hmem
    -- The generation of a vertex knows its name.
    obtain rfl := (h _ _ hv).vertex_eq
    exact ⟨v, hv, rfl⟩
  · rintro ⟨v, hv, rfl⟩
    exact ⟨v, mem_toList.2 ⟨vertex, hv⟩, Prod.ext (h _ _ hv).vertex_eq rfl⟩

/-- The listed tasks are those that need a slot: `(vertex, k)` is listed iff it `Waits`. -/
theorem mem_listed_waitingTasks (h : s.graph.WellFormed) :
    (vertex, k) ∈ listed s.waitingTasks ↔ s.Waits vertex k := by
  rw [mem_listed]
  constructor
  · rintro ⟨ks, hw, hk⟩
    obtain ⟨v, hv, rfl⟩ := (mem_waitingTasks h).1 hw
    obtain ⟨task, htask, rfl⟩ := List.mem_map.1 hk
    obtain ⟨hmem, hpending⟩ := List.mem_filter.1 htask
    obtain ⟨i, hi⟩ := List.mem_iff_getElem?.1 hmem
    rw [((h _ _ hv).task i task hi).subtask_eq]
    exact ⟨task, taskAt?_eq_some_iff.2 ⟨v, hv, hi⟩, hpending⟩
  · rintro ⟨task, htask, hpending⟩
    obtain ⟨v, hv, ht⟩ := taskAt?_eq_some_iff.1 htask
    refine ⟨_, (mem_waitingTasks h).2 ⟨v, hv, rfl⟩, List.mem_map.2 ⟨task, ?_, ?_⟩⟩
    · exact List.mem_filter.2 ⟨List.mem_of_getElem? ht, hpending⟩
    · exact ((h _ _ hv).task k task ht).subtask_eq

/-- No task is listed twice in `listed s.waitingTasks`. -/
theorem nodup_listed_waitingTasks (h : s.graph.WellFormed) : (listed s.waitingTasks).Nodup := by
  have hget {p : VertexId × VertexExecution} (hp : p ∈ s.graph.vertices.toList) :
      s.graph.get? p.1 = some p.2 :=
    Std.ExtTreeMap.mem_toList_iff_getElem?_eq_some.1 hp
  unfold listed
  rw [List.nodup_flatMap]
  constructor
  · rintro ⟨vertex, ks⟩ hw
    obtain ⟨v, hv, rfl⟩ := (mem_waitingTasks h).1 hw
    exact (nodup_pendingSubtasks (h _ _ hv)).map fun _ _ heq => (Prod.mk.inj heq).2
  · -- Two generations belong to different vertices, and so do their tasks.
    unfold waitingTasks ExecutionGraph.toList
    rw [List.map_map, List.pairwise_map]
    refine Std.ExtTreeMap.distinct_keys_toList.imp_of_mem fun {p q} hp hq hne => ?_
    rintro ⟨vertex, i⟩ hleft hright
    obtain ⟨_, -, heq⟩ := List.mem_map.1 hleft
    obtain ⟨_, -, heq'⟩ := List.mem_map.1 hright
    refine hne (Std.LawfulEqCmp.compare_eq_iff_eq.2 ?_)
    rw [← (h _ _ (hget hp)).vertex_eq, ← (h _ _ (hget hq)).vertex_eq]
    exact (congrArg Prod.fst heq).trans (congrArg Prod.fst heq').symm

/-- What needs a slot gets one, or no node has room for it, unless an attempt is refused. -/
theorem ensures_placePending (hexecuting : s.isExecuting = true)
    (hlive : s.status.isTerminal = false) (hwf : s.graph.WellFormed) :
    (placePending now).Ensures s (fun _ t => PassSteps now s t ∧
      (t.backend.refusals = s.backend.refusals →
        ∀ vertex k, t.Waits vertex k → t.Full vertex now)) E := by
  unfold placePending
  rw [ensures_bind, ensures_get, ensures_bind]
  have hbegin : Placing now s (listed s.waitingTasks) s :=
    ⟨.refl, hexecuting, hlive, nodup_listed_waitingTasks hwf,
      fun p hp => (mem_listed_waitingTasks hwf).1 hp,
      fun _ vertex k hwait => Or.inl ((mem_listed_waitingTasks hwf).2 hwait)⟩
  refine (Ensures.foldlM (fun rest _ t => Placing now s (listed rest) t)
    (fun w rest all t ht => ht.placeTasks) _ _ s hbegin).mono ?_ fun _ ht => ht
  intro _ t ht
  exact ⟨ht.passing, fun hsame vertex k hwait =>
    (ht.complete hsame vertex k hwait).resolve_left List.not_mem_nil⟩

/-! ## Starting -/

/-- A vertex `id` that has not started is no producer of a ready one. -/
theorem source_ne_of_isReady {id other : VertexId} {e : JobEdge} (hnew : s.graph.get? id = none)
    (hready : s.isReady other = true) (he : e ∈ s.job.inputsOf other) : e.source ≠ id := by
  rintro rfl
  have hinput := List.all_eq_true.1 hready e he
  have hfinished := isFinished_of_get?_eq_none hnew
  have hdeployed : s.graph.isDeployed e.source = false := by
    rw [ExecutionGraph.isDeployed, hnew]; rfl
  unfold inputReady at hinput
  -- Whatever the exchange of the edge, it waits at least until its producer is deployed.
  cases hexchange : e.exchange <;> simp [hexchange, hfinished, hdeployed] at hinput

/-- A vertex `other` stays ready when `id` starts. -/
theorem isReady_started {v : JobVertex} {inputs : List InputStatistics} {id other : VertexId}
    (hnew : s.graph.get? id = none) (hready : s.isReady other = true) :
    (s.started v inputs id now).isReady other = true := by
  apply List.all_eq_true.2
  intro e he
  -- Only the vertex that starts changes, and it is none of the producers.
  have hne := source_ne_of_isReady hnew hready he
  have hget : (s.started v inputs id now).graph.get? e.source = s.graph.get? e.source :=
    (get?_regenerate _ _).trans (if_neg (Ne.symm hne))
  have hsame : (s.started v inputs id now).inputReady e = s.inputReady e := by
    unfold inputReady ExecutionGraph.isFinished ExecutionGraph.isDeployed
    rw [hget]
    rfl
  rw [hsame]
  exact List.all_eq_true.1 hready e he

/-- The vertices that are ready besides `id` remain so when `id` starts. -/
theorem mem_readyVertices_started {v : JobVertex} {inputs : List InputStatistics}
    {id other : VertexId} (hid : id ∈ s.readyVertices) (hother : other ∈ s.readyVertices)
    (hne : id ≠ other) : other ∈ (s.started v inputs id now).readyVertices := by
  obtain ⟨hmem, hnew, hready⟩ := mem_readyVertices.1 hother
  refine mem_readyVertices.2 ⟨hmem, ?_, isReady_started (mem_readyVertices.1 hid).2.1 hready⟩
  exact (get?_regenerate _ _).trans ((if_neg hne).trans hnew)

/-- When a ready vertex starts, there is one vertex less that is `unstarted`. -/
theorem unstarted_started {v : JobVertex} {inputs : List InputStatistics} {id : VertexId}
    (hid : id ∈ s.readyVertices) : (s.started v inputs id now).unstarted < s.unstarted := by
  obtain ⟨hmem, hnew, -⟩ := mem_readyVertices.1 hid
  have hget (other : VertexId) : ((s.started v inputs id now).graph.get? other).isNone =
      (decide (id ≠ other) && (s.graph.get? other).isNone) := by
    rw [show (s.started v inputs id now).graph.get? other = _ from get?_regenerate _ _]
    by_cases heq : id = other <;> simp [heq]
  -- Of the vertices that were counted before, all are counted but this one.
  have hlt : ((s.order.filter fun other => (s.graph.get? other).isNone).filter
      fun other => decide (id ≠ other)).length <
        (s.order.filter fun other => (s.graph.get? other).isNone).length :=
    List.length_filter_lt_length_iff_exists.2
      ⟨id, List.mem_filter.2 ⟨hmem, Option.isNone_iff_eq_none.2 hnew⟩, by simp⟩
  rw [List.filter_filter, ← List.countP_eq_length_filter, ← List.countP_eq_length_filter] at hlt
  simp only [unstarted, hget]
  exact hlt

/-- A ready vertex does not start: what its inputs have produced cannot be added up, or it would run
without tasks. -/
def Stalled (s : Scheduler) : Prop :=
  ∃ id ∈ s.readyVertices, ∃ v, s.job.get? id = some v ∧
    ∀ inputs, s.inputStatistics id = .ok inputs →
      s.sizing.decideWithin v inputs (some s.view) = 0

/-- Every vertex of the order is one of the job. -/
def Known (s : Scheduler) : Prop := ∀ id ∈ s.order, (s.job.get? id).isSome = true

/-- The vertices of the order are `Known` in every state of the same job. -/
theorem Known.sameJob (h : s.Known) (hjob : s.SameJob t) : t.Known := by
  intro id hid
  rw [hjob.2.2] at hid
  rw [hjob.2.1]
  exact h id hid

/-- The vertices that are ready start one by one. Their number `n` is returned, and if it is `0`,
nothing has changed. -/
theorem ensures_startReady (hexecuting : s.isExecuting = true)
    (hlive : s.status.isTerminal = false) (hnodup : s.order.Nodup) :
    (startReady now).Ensures s
      (fun n t => PassSteps now s t ∧ t.backend = s.backend ∧
        (n = 0 → s.readyVertices = [] ∧ t = s) ∧ (s.Known → t.unstarted + n ≤ s.unstarted))
      (fun t => PassSteps now s t ∧ t.Stalled) := by
  unfold startReady
  rw [ensures_bind, ensures_get, ensures_bind]
  -- The vertices that are still to come are ready, and each one before them has started.
  refine (Ensures.forM (fun rest t => PassSteps now s t ∧ t.backend = s.backend ∧ rest.Nodup ∧
    (∀ id ∈ rest, id ∈ t.readyVertices) ∧ (s.readyVertices = [] → t = s) ∧
      (s.Known → t.unstarted + s.readyVertices.length ≤ s.unstarted + rest.length))
    ?_ _ s ⟨.refl, rfl, hnodup.sublist List.filter_sublist, fun _ hid => hid, fun _ => rfl,
      fun _ => Nat.le_refl _⟩).mono ?_ fun _ ht => ht
  · intro id rest t ht
    obtain ⟨hpass, hbackend, hrest, hready, hsame, hcount⟩ := ht
    obtain ⟨hid, hrest⟩ := List.nodup_cons.1 hrest
    obtain ⟨hfirst, hlater⟩ := List.forall_mem_cons.1 hready
    apply ensures_startVertex
    · intro hnone
      refine ⟨hpass, hbackend, hrest, hlater, hsame, fun hknown => ?_⟩
      have hsome := hknown id (hpass.sameJob.2.2 ▸ (mem_readyVertices.1 hfirst).1)
      rw [← hpass.sameJob.2.1, hnone] at hsome
      cases hsome
    · intro v hv hzero
      exact ⟨hpass, id, hfirst, v, hv, hzero⟩
    · intro v inputs hv hinputs hpos
      have hstep : PassStep now t (t.started v inputs id now) :=
        .start (hpass.isExecuting_eq.trans hexecuting) (hpass.status_eq ▸ hlive) hfirst hv hinputs
          hpos
      refine ⟨hpass.tail hstep, hbackend, hrest, ?_, ?_, ?_⟩
      · intro other hother
        refine mem_readyVertices_started hfirst (hlater other hother) ?_
        rintro rfl
        exact hid hother
      · -- There was a vertex to start in the beginning.
        intro hnone
        rw [hsame hnone, hnone] at hfirst
        exact absurd hfirst List.not_mem_nil
      · intro hknown
        have hbefore := hcount hknown
        have hless : (t.started v inputs id now).unstarted < t.unstarted := unstarted_started hfirst
        rw [List.length_cons] at hbefore
        omega
  · intro _ t ht
    obtain ⟨hpass, hbackend, -, -, hsame, hcount⟩ := ht
    refine ⟨hpass, hbackend, ?_, hcount⟩
    intro hzero
    have hnone := List.length_eq_zero_iff.1 hzero
    exact ⟨hnone, hsame hnone⟩

/-! ## Passes -/

/-- Passes come to an end where no vertex is ready, if there are more of them, `limit`, than
vertices that have not started, and where nothing is left, unless an attempt was refused. -/
theorem ensures_passes : ∀ (limit : Nat) (s : Scheduler), s.Sound → s.isExecuting = true →
    s.status.isTerminal = false → (passes now limit).Ensures s
      (fun _ t => PassSteps now s t ∧ (s.Known → s.unstarted < limit → t.readyVertices = [] ∧
        (t.backend.refusals = s.backend.refusals → t.Exhausted now)))
      (fun t => PassSteps now s t ∧ t.Stalled)
  | 0, s, _, _, _ => ⟨.refl, fun _ hlt => absurd hlt (Nat.not_lt_zero _)⟩
  | limit + 1, s, hs, hexecuting, hlive => by
    unfold passes
    rw [ensures_bind]
    refine (ensures_placePending hexecuting hlive hs.wellFormed).mono ?_ fun _ ht => ht
    rintro _ t ⟨hplace, hfull⟩
    have ht : t.Sound := hplace.steps.sound hs
    have htexecuting := hplace.isExecuting_eq.trans hexecuting
    have htlive : t.status.isTerminal = false := hplace.status_eq ▸ hlive
    rw [ensures_bind]
    refine (ensures_startReady htexecuting htlive ht.nodup_order).mono ?_
      fun u hu => ⟨hplace.trans hu.1, hu.2⟩
    rintro n u ⟨hstart, hbackend, hzero, hcount⟩
    split
    · next h =>
      -- No vertex was ready, and no attempt was placed since.
      obtain ⟨hidle, rfl⟩ := hzero h
      exact ⟨hplace, fun _ _ => ⟨hidle, fun hsame => ⟨hfull hsame, hidle⟩⟩⟩
    · next h =>
      have hfirst : PassSteps now s u := hplace.trans hstart
      refine (ensures_passes limit u (hfirst.steps.sound hs) (hfirst.isExecuting_eq.trans hexecuting)
        (hfirst.status_eq ▸ hlive)).mono ?_ fun w hw => ⟨hfirst.trans hw.1, hw.2⟩
      rintro _ w ⟨hlater, hrest⟩
      refine ⟨hfirst.trans hlater, fun hknown hlt => ?_⟩
      have hbound := hcount (hknown.sameJob hplace.sameJob)
      have hless := hplace.unstarted_le
      have hbefore := hfirst.refusals_le
      have hafter := hlater.refusals_le
      obtain ⟨hidle, hexhausted⟩ := hrest (hknown.sameJob hfirst.sameJob) (by omega)
      exact ⟨hidle, fun hsame => hexhausted (by omega)⟩

/-- Scheduling is made of steps of passes. It leaves no vertex that is ready and, unless an attempt
is refused, nothing behind: the state is `Exhausted`. It ends early only with a ready vertex that
does not start. -/
theorem ensures_schedule_exhausted (hs : s.Sound) :
    (schedule now).Ensures s
      (fun _ t => PassSteps now s t ∧ (s.isExecuting = true → s.status.isTerminal = false → s.Known →
        t.readyVertices = [] ∧ (t.backend.refusals = s.backend.refusals → t.Exhausted now)))
      (fun t => PassSteps now s t ∧ t.Stalled) := by
  unfold schedule
  rw [ensures_bind, ensures_get]
  split
  · next h =>
    refine ⟨.refl, fun hexecuting hlive => ?_⟩
    rw [hexecuting, hlive] at h
    cases h
  · next h =>
    have hcond : s.status.isTerminal = false ∧ s.isExecuting = true := by simpa using h
    exact (ensures_passes _ s hs hcond.2 hcond.1).mono
      (fun _ t ht => ⟨ht.1, fun _ _ hknown => ht.2 hknown (Nat.lt_succ_self _)⟩) fun _ ht => ht

/-- However `schedule` ends, it does so after steps of passes. -/
theorem passSteps_schedule (hs : s.Sound) : PassSteps now s ((schedule now).final s) :=
  ensures_final.1 ((ensures_schedule_exhausted hs).mono (fun _ _ ht => ht.1) fun _ ht => ht.1)

/-- However `schedule` ends, it does so after steps of a call. -/
theorem ensures_schedule (hs : s.Sound) :
    (schedule now).Ensures s (fun _ => Steps now s) (Steps now s) :=
  ensures_final.2 (passSteps_schedule hs).steps

end AdaptiveBatch.Scheduler
