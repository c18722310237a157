import AdaptiveBatch.Proofs.Execution.NodeCounts
import AdaptiveBatch.Proofs.Scheduler.Exhaustion

/-! # Counts that are kept and counts that are made anew

A pass counts the attempts of all vertices on every node once, those of a vertex when it comes to
the vertex, and keeps both counts up to date while it adds attempts. An attempt that the backend
refuses stays in the graph as a failed one, and counts on no node. So the kept counts are always
those of the graph, and the pass chooses the nodes that it would choose by counting anew before
every task.

* **`Scheduler.Occupancy.Counted`** — the kept counts are those of the graph;
* **`Scheduler.placeAnew`**, **`Scheduler.placeRecounted`** — the pass that counts anew;
* **`Scheduler.Recounting`** — both passes have come equally far;
* **`Scheduler.placePending_eq_placeRecounted`** — both end in the same way. -/

namespace AdaptiveBatch.Scheduler

open Scheduling ExecutionGraph

variable {s t u w : Scheduler} {now : Instant} {vertex : VertexId} {k : Nat} {o : Occupancy}

/-- The count of a node grows by one where the backend accepts the attempt, and no other count
changes. -/
theorem on_nodeCounts_placed {v : VertexExecution} {task : Task} {node : NodeId}
    {speculative : Bool} (hv : s.graph.get? vertex = some v) (ht : v.tasks[k]? = some task)
    (n : NodeId) :
    (s.placed (v.nextId vertex k task) node speculative now).graph.nodeCounts.on n =
      s.graph.nodeCounts.on n +
        if (s.backend.deploy (v.nextId vertex k task) node now).1 = true ∧ node = n
        then 1 else 0 := by
  unfold placed
  cases (s.backend.deploy (v.nextId vertex k task) node now).1 with
  | true => exact on_nodeCounts_push (isNext_nextId hv ht) n
  | false => exact on_nodeCounts_push (isNext_nextId hv ht) n

/-! ## Kept counts -/

/-- The counts of the attempts in the graph, when a vertex is placed. -/
def occupancy (s : Scheduler) (vertex : VertexId) : Occupancy where
  all := s.graph.nodeCounts
  own := s.graph.vertexNodeCounts vertex

/-- The kept counts are those of the graph. -/
structure Occupancy.Counted (o : Occupancy) (s : Scheduler) (vertex : VertexId) : Prop where
  /-- Those of all vertices. -/
  all : ∀ node, o.all.on node = s.graph.nodeCounts.on node
  /-- Those of the vertex. -/
  own : o.Exact s vertex

/-- Kept counts lead `nodeFor?` to the same node as counts that are made anew,
`s.occupancy vertex`. -/
theorem Occupancy.Counted.nodeFor?_eq (h : o.Counted s vertex) (now : Instant) :
    s.nodeFor? o now = s.nodeFor? (s.occupancy vertex) now := by
  unfold nodeFor?
  rw [nodeLoads_congr h.all h.own]
  rfl

/-- The counts are kept by counting an attempt that the backend accepts with `o.bump`, and no other
one. -/
theorem Occupancy.Counted.placed {v : VertexExecution} {task : Task} {node : NodeId}
    (h : o.Counted s vertex) (hv : s.graph.get? vertex = some v) (ht : v.tasks[k]? = some task) :
    (if (s.backend.deploy (v.nextId vertex k task) node now).1 = true then o.bump node
      else o).Counted (s.placed (v.nextId vertex k task) node false now) vertex := by
  constructor
  · intro n
    rw [on_nodeCounts_placed hv ht, ← h.all n]
    split
    · next haccepted => simp [Occupancy.bump, NodeCounts.on_bump, haccepted]
    · next hrefused => simp [hrefused]
  · intro n
    rw [on_vertexNodeCounts_placed hv ht, ← h.own n]
    split
    · next haccepted => simp [Occupancy.bump, NodeCounts.on_bump, haccepted]
    · next hrefused => simp [hrefused]

/-! ## Counting anew -/

/-- Places a task where a node is free by counts that are made for it. -/
def placeAnew (now : Instant) (p : VertexId × Nat) : Scheduling Unit := do
  let s ← get
  match s.nodeFor? (s.occupancy p.1) now with
  | none => pure ()
  | some node =>
    let _ ← deploy p.1 p.2 node false now

/-- Where no node is free, `placeAnew` does nothing. -/
theorem placeAnew_of_none (h : s.nodeFor? (s.occupancy vertex) now = none) :
    placeAnew now (vertex, k) s = .ok () s := by
  unfold placeAnew
  rw [get_bind_apply]
  simp only [h]
  rfl

/-- On a free node the task gets an attempt, which the backend may refuse: `placeAnew` leads to
`s.placed`. -/
theorem placeAnew_of_some {v : VertexExecution} {task : Task} {node : NodeId}
    (h : s.nodeFor? (s.occupancy vertex) now = some node) (hv : s.graph.get? vertex = some v)
    (ht : v.tasks[k]? = some task) (hw : task.winner = none) :
    placeAnew now (vertex, k) s = .ok () (s.placed (v.nextId vertex k task) node false now) := by
  unfold placeAnew
  rw [get_bind_apply]
  simp only [h]
  show EStateM.bind (deploy vertex k node false now) _ s = _
  rw [EStateM.bind, deploy_eq hv ht hw]
  rfl

/-- Places every task that needs a slot, where a node is free, and counts anew before each. -/
def placeRecounted (now : Instant) : Scheduling Unit := do
  (listed (← get).waitingTasks).forM (placeAnew now)

/-- The pass that keeps counts has come as far as the one that counts anew: what is still to come is
placed by the latter as it would have been. -/
structure Recounting (now : Instant) (s : Scheduler) (rest : List (VertexId × Nat))
    (t : Scheduler) : Prop where
  /-- The pass that counts anew goes on from here. -/
  remaining : rest.forM (placeAnew now) t = placeRecounted now s
  /-- No task is to come twice. -/
  nodup : rest.Nodup
  /-- What is to come still needs a slot. -/
  waits : ∀ p ∈ rest, t.Waits p.1 p.2

/-- Both passes begin with the same tasks, `listed s.waitingTasks`. -/
theorem Recounting.init (h : s.graph.WellFormed) :
    Recounting now s (listed s.waitingTasks) s where
  remaining := rfl
  nodup := nodup_listed_waitingTasks h
  waits _ := (mem_listed_waitingTasks h).1

/-- One task, `(vertex, k)`, is placed by both, and the kept counts stay those of the graph. -/
theorem Recounting.placeTask {rest : List (VertexId × Nat)}
    (h : Recounting now s ((vertex, k) :: rest) t) (ho : o.Counted t vertex) :
    (placeTask vertex now o k).Ensures t
      (fun o u => Recounting now s rest u ∧ o.Counted u vertex) fun _ => False := by
  obtain ⟨hfirst, hnodup⟩ := List.nodup_cons.1 h.nodup
  obtain ⟨hwaits, hlater⟩ := List.forall_mem_cons.1 h.waits
  -- The other pass places the task first, and goes on with the rest.
  have hremaining {u : Scheduler} (hu : placeAnew now (vertex, k) t = .ok () u) :
      rest.forM (placeAnew now) u = placeRecounted now s := by
    rw [← h.remaining]
    show _ = EStateM.bind (placeAnew now (vertex, k)) (fun _ => rest.forM (placeAnew now)) t
    rw [EStateM.bind, hu]
  unfold Scheduler.placeTask
  rw [ensures_bind, ensures_get, ho.nodeFor?_eq]
  cases hnode : t.nodeFor? (t.occupancy vertex) now with
  | none => exact ⟨⟨hremaining (placeAnew_of_none hnode), hnodup, hlater⟩, ho⟩
  | some node =>
    obtain ⟨task, htask, hpending⟩ := hwaits
    obtain ⟨v, hv, ht⟩ := taskAt?_eq_some_iff.1 htask
    have hwinner : task.winner = none := (Task.isPending_iff.1 hpending).1
    have hrest : Recounting now s rest (t.placed (v.nextId vertex k task) node false now) := by
      refine ⟨hremaining (placeAnew_of_some hnode hv ht hwinner), hnodup, fun p hp => ?_⟩
      obtain ⟨other, hother, hpend⟩ := hlater p hp
      refine ⟨other, (taskAt?_placed ?_).trans hother, hpend⟩
      rintro ⟨rfl, rfl⟩
      exact hfirst hp
    have hcounted : Occupancy.Counted _ (t.placed (v.nextId vertex k task) node false now) vertex :=
      ho.placed hv ht
    show (deploy vertex k node false now >>= _).Ensures t _ _
    rw [ensures_bind, ensures_of_eq_ok (deploy_eq hv ht hwinner)]
    cases haccepted : (t.backend.deploy (v.nextId vertex k task) node now).1 with
    | true =>
      rw [haccepted, if_pos rfl] at hcounted
      exact ⟨hrest, hcounted⟩
    | false =>
      rw [haccepted, if_neg Bool.false_ne_true] at hcounted
      exact ⟨hrest, hcounted⟩

/-- The tasks `ks` of one vertex are placed by both. Its own counts are made when the first of them
comes; those of all vertices are handed on. -/
theorem Recounting.placeTasks {all : NodeCounts} {waiting : List (VertexId × List Nat)}
    {ks : List Nat} (h : Recounting now s (listed ((vertex, ks) :: waiting)) t)
    (hall : ∀ node, all.on node = t.graph.nodeCounts.on node) :
    (placeTasks now all (vertex, ks)).Ensures t
      (fun all u => Recounting now s (listed waiting) u ∧
        ∀ node, all.on node = u.graph.nodeCounts.on node) fun _ => False := by
  unfold Scheduler.placeTasks
  rw [ensures_bind, ensures_get, ensures_bind]
  exact (Ensures.foldlM
    (fun rest o u => Recounting now s (rest.map (vertex, ·) ++ listed waiting) u ∧
      o.Counted u vertex)
    (fun k rest o u hu => hu.1.placeTask hu.2) ks _ t ⟨h, hall, fun _ => rfl⟩).mono
    (fun _ _ hu => ⟨hu.1, hu.2.all⟩) fun _ hu => hu

/-- On a well-formed graph `placePending` and `placeRecounted` both return, and end in the same
state. -/
theorem ensures_placePending_recounted (hwf : s.graph.WellFormed) :
    (placePending now).Ensures s (fun _ t => placeRecounted now s = .ok () t) fun _ => False := by
  unfold placePending
  rw [ensures_bind, ensures_get, ensures_bind]
  refine (Ensures.foldlM (fun rest all t => Recounting now s (listed rest) t ∧
      ∀ node, all.on node = t.graph.nodeCounts.on node)
    (fun w rest all t ht => ht.1.placeTasks ht.2) _ _ s ⟨.init hwf, fun _ => rfl⟩).mono ?_
    fun _ ht => ht
  intro _ t ht
  exact ht.1.remaining.symm

/-- **Kept counts are counts made anew.** Take a state that a submitted job comes to, after its
calls or in the middle of one, whatever the backend accepts or refuses. The pass that keeps its
counts (`placePending`) and the one that counts the attempts of all vertices and of the vertex anew
before every task (`placeRecounted`) both return. They end in the same state: the backend was asked
for the same attempts on the same nodes in the same order, and the graph is the same. -/
theorem placePending_eq_placeRecounted {config : Config} {job : JobGraph} {backend : Backend}
    {start time : Instant} (hsubmit : submit config job backend start = .ok s)
    (hu : s.Visits time u) (hsteps : Steps time u w) (now : Instant) :
    ∃ t, placePending now w = .ok () t ∧ placeRecounted now w = .ok () t := by
  have hwf : w.graph.WellFormed :=
    (hsteps.sound (hu.sameJob (.of_submit hsubmit)).1).wellFormed
  have hboth : (placePending now).Ensures w (fun _ t => placeRecounted now w = .ok () t)
      fun _ => False := ensures_placePending_recounted hwf
  cases hplace : placePending now w with
  | ok _ t => exact ⟨t, rfl, (ensures_of_eq_ok hplace).1 hboth⟩
  | error i t => exact ((ensures_of_eq_error hplace).1 hboth).elim

/-! ### A pass with a refusal -/

/-- Two slots for the source, as the look at them leaves the job: its two tasks wait. -/
def sampleTwoWaiting (s : Scheduler) : Scheduler := (look .origin).final (s.viewing (Sample.view 2))

/-- The backend accepts the first attempt and refuses the second one; both passes ask for the same
two and end in the same state `t`. -/
theorem placePending_eq_placeRecounted_sample : ∃ s t,
    submit Sample.config Sample.job { accepts := Sample.accepts } .origin = .ok s ∧
      s.Visits .origin (sampleTwoWaiting s) ∧
      placePending .origin (sampleTwoWaiting s) = .ok () t ∧
      placeRecounted .origin (sampleTwoWaiting s) = .ok () t ∧
      t.backend.deployCount = 2 ∧ t.backend.refusals = 1 := by
  have htest : (submit Sample.config Sample.job { accepts := Sample.accepts } .origin).toOption.any
      (fun s =>
        let t := (placePending .origin).final (sampleTwoWaiting s)
        decide (t.backend.deployCount = 2) && decide (t.backend.refusals = 1)) = true := by
    decide +kernel
  obtain ⟨s, hs, heval⟩ := exists_of_submit htest
  simp only [Bool.and_eq_true, decide_eq_true_eq] at heval
  have hvisits : s.Visits .origin (sampleTwoWaiting s) :=
    ⟨[], .event (.resources (Sample.view 2)), _, .resources, .single .look⟩
  obtain ⟨t, hplace, hanew⟩ := placePending_eq_placeRecounted hs hvisits .refl .origin
  rw [final_of_eq_ok hplace] at heval
  exact ⟨s, t, hs, hvisits, hplace, hanew, heval⟩

end AdaptiveBatch.Scheduler
