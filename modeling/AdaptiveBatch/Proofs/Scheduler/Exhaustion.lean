import AdaptiveBatch.Proofs.Scheduler.Unrefused

/-! # What passes leave behind

A pass places producers before it looks for ready vertices, and a started vertex brings new tasks,
so passes are repeated. When they end and no attempt was refused, no vertex is ready that has not
started, and no task waits for a slot while a node has room for its vertex. One more pass would find
nothing to do.

The passes end early only when the bytes that the producers of a ready vertex have reported leave
the range of a sum; nothing else can keep a ready vertex of an admitted job from starting.

* **`Scheduler.Known.of_submit`**, **`Scheduler.Stalled.overflow`** — the job behind the passes;
* **`Scheduler.ensures_schedule_of_visits`** — the passes of a job;
* **`Scheduler.Exhausted.schedule_eq`** — one more pass does nothing;
* **`Scheduler.schedule_leaves_nothing`** — what is left, wherever passes begin. -/

namespace AdaptiveBatch

namespace Scheduler

open Scheduling ExecutionGraph

variable {s t u : Scheduler} {now : Instant} {config : Config} {job : JobGraph} {backend : Backend}
  {start : Instant}

/-! ## The job -/

/-- The vertices of the order are those of the job: `s.order` lists their names. -/
theorem mem_order_of_submit (h : submit config job backend start = .ok s) {id : VertexId} :
    id ∈ s.order ↔ ∃ v ∈ job.vertices, v.id = id := by
  obtain ⟨order, horder, -, rfl⟩ := submit_eq_ok h
  show id ∈ order.map (·.id) ↔ _
  simp only [List.mem_map, (JobGraph.perm_topologicalOrder horder).mem_iff]

/-- The vertices of the order are found in the job, so a new job is `Known`. -/
theorem Known.of_submit (h : submit config job backend start = .ok s) : s.Known := by
  obtain ⟨order, horder, -, rfl⟩ := submit_eq_ok h
  intro id hid
  obtain ⟨v, hv, rfl⟩ := List.mem_map.1 hid
  rw [show job.get? v.id = some v from JobGraph.get?_of_mem_order horder hv]
  rfl

/-- A ready vertex of an admitted job starts, unless its inputs cannot be added up: passes stall
only for an overflow of `inputStatistics`. -/
theorem Stalled.overflow (h : s.Stalled) (hs : s.Admitted) :
    ∃ id ∈ s.readyVertices, ∃ o, s.inputStatistics id = .error o := by
  obtain ⟨id, hid, v, hv, hzero⟩ := h
  refine ⟨id, hid, ?_⟩
  cases hinputs : s.inputStatistics id with
  | error o => exact ⟨o, rfl⟩
  | ok inputs => exact absurd (hzero inputs hinputs) (hs.decideWithin_ne_zero hv inputs)

/-- The job is the same wherever a scheduler comes to, and the state `u` there is sound. -/
theorem Visits.sameJob (hs : s.Sound) (h : s.Visits now u) : u.Sound ∧ s.SameJob u :=
  h.keeps_of_steps hs (fun _ _ _ _ hopen ht => ht.trans hopen.sameJob)
    (fun _ _ _ hstep ht => ht.trans hstep.sameJob) (SameJob.refl s)

/-- What scheduling does, wherever it begins: it leaves no vertex that is ready and, unless an attempt
is refused, nothing behind, and it ends early only with a ready vertex whose inputs cannot be added
up. -/
theorem ensures_schedule_of_visits {time : Instant} (hsubmit : submit config job backend start = .ok s)
    (hu : s.Visits time u) (now : Instant) :
    (schedule now).Ensures u
      (fun _ w => PassSteps now u w ∧ (u.isExecuting = true → u.status.isTerminal = false →
        w.readyVertices = [] ∧ (w.backend.refusals = u.backend.refusals → w.Exhausted now)))
      (fun w => ∃ v ∈ job.vertices, w.graph.get? v.id = none ∧ w.isReady v.id = true ∧
        ∃ o, w.inputStatistics v.id = .error o) := by
  obtain ⟨hsound, hjob⟩ := hu.sameJob (.of_submit hsubmit)
  refine (ensures_schedule_exhausted hsound).mono ?_ ?_
  · rintro _ w ⟨hpass, hexhausted⟩
    exact ⟨hpass, fun hexecuting hlive =>
      hexhausted hexecuting hlive ((Known.of_submit hsubmit).sameJob hjob)⟩
  · rintro w ⟨hpass, hstalled⟩
    have hadmitted := (Tracked.of_submit hsubmit).admitted.sameJob (hjob.trans hpass.sameJob)
    obtain ⟨id, hid, o, ho⟩ := hstalled.overflow hadmitted
    obtain ⟨hmem, hnew, hready⟩ := mem_readyVertices.1 hid
    rw [hpass.sameJob.2.2, hjob.2.2] at hmem
    obtain ⟨v, hv, rfl⟩ := (mem_order_of_submit hsubmit).1 hmem
    exact ⟨v, hv, hnew, hready, o, ho⟩

/-! ## One more pass -/

/-- Where nothing is left, `schedule` returns and changes nothing. -/
theorem Exhausted.schedule_eq (h : s.Exhausted now) (hs : s.Sound) :
    schedule now s = .ok () s := by
  cases hresult : schedule now s with
  | ok _ t =>
    obtain ⟨hpass, -⟩ := (ensures_of_eq_ok hresult).1 (ensures_schedule_exhausted hs)
    rw [h.eq hpass]
  | error i t =>
    -- It could only end early with a ready vertex, and there is none.
    obtain ⟨hpass, id, hid, -⟩ := (ensures_of_eq_error hresult).1 (ensures_schedule_exhausted hs)
    rw [h.eq hpass, h.idle] at hid
    exact absurd hid List.not_mem_nil

/-- No node is chosen for a task that waits, where nothing is left to place: `selectNode` answers
`none` for every request `r`. -/
theorem Exhausted.selectNode_eq_none (h : s.Exhausted now) {vertex : VertexId}
    {v : VertexExecution} {task : Task} (hv : s.graph.get? vertex = some v) (ht : task ∈ v.tasks)
    (hpending : task.isPending = true) (active : NodeCounts) (r : PlacementRequest) :
    selectNode (nodeLoads s.view active (s.graph.vertexNodeCounts vertex) s.slow now) r = none := by
  obtain ⟨k, hk⟩ := List.mem_iff_getElem?.1 ht
  have hfull := h.full vertex k ⟨task, taskAt?_eq_some_iff.2 ⟨v, hv, hk⟩, hpending⟩
  rw [selectNode_nodeLoads_eq_none_iff]
  intro node hmem hblocked
  exact Nat.not_lt.1 fun hlt => hfull node ⟨hmem, hblocked, hlt⟩

/-- **Nothing startable is left behind.** Take a state that a submitted job comes to, after its
calls or in the middle of one, in which the job runs and has not ended, and `schedule` at any time.
If no attempt is refused, then afterwards no vertex of the job is ready that has not started; no
node is chosen for a task that needs a slot (`selectNode … = none`), by the loads of the resulting
state and whatever is asked of the node; and scheduling once more returns and changes nothing, so it
asks the backend for nothing. The passes end early only with a ready vertex whose inputs cannot be
added up. -/
theorem schedule_leaves_nothing {time : Instant}
    (hsubmit : submit config job backend start = .ok s) (hu : s.Visits time u)
    (hexecuting : u.isExecuting = true) (hlive : u.status.isTerminal = false) (now : Instant) :
    (schedule now).Ensures u
      (fun _ w => w.backend.refusals = u.backend.refusals →
        (∀ v ∈ job.vertices, w.graph.get? v.id = none → w.isReady v.id = false) ∧
        (∀ (vertex : VertexId) (v : VertexExecution), w.graph.get? vertex = some v →
          ∀ t ∈ v.tasks, t.isPending = true → ∀ r : PlacementRequest,
            selectNode (nodeLoads w.view w.graph.nodeCounts (w.graph.vertexNodeCounts vertex)
              w.slow now) r = none) ∧
        schedule now w = .ok () w)
      (fun w => ∃ v ∈ job.vertices, w.graph.get? v.id = none ∧ w.isReady v.id = true ∧
        ∃ o, w.inputStatistics v.id = .error o) := by
  obtain ⟨hsound, hjob⟩ := hu.sameJob (.of_submit hsubmit)
  refine (ensures_schedule_of_visits hsubmit hu now).mono ?_ fun _ hw => hw
  rintro _ w ⟨hpass, hexhausted⟩ hsame
  have hw := (hexhausted hexecuting hlive).2 hsame
  refine ⟨?_, fun vertex v hv t ht hpending r => hw.selectNode_eq_none hv ht hpending _ r,
    hw.schedule_eq (hpass.steps.sound hsound)⟩
  intro v hv hnew
  by_contra hready
  have hmem : v.id ∈ w.order := by
    rw [hpass.sameJob.2.2, hjob.2.2]
    exact (mem_order_of_submit hsubmit).2 ⟨v, hv, rfl⟩
  have hleft : v.id ∈ w.readyVertices :=
    mem_readyVertices.2 ⟨hmem, hnew, Bool.not_eq_false _ ▸ hready⟩
  rw [hw.idle] at hleft
  exact List.not_mem_nil hleft

/-! ### A pass -/

/-- A slot for the pipeline, as the look at it leaves the job: nothing is placed yet. -/
def sampleFirstLook (s : Scheduler) : Scheduler := (look .origin).final (s.viewing (Sample.view 1))

/-- Whether scheduling returns, in a state that passes a test. -/
def schedules (s : Scheduler) (now : Instant) (P : Scheduler → Bool) : Bool :=
  match schedule now s with
  | .ok _ t => P t
  | .error _ _ => false

/-- A pass for which `schedules` tests positive has returned, in a state with `P`. -/
theorem exists_of_schedules {P : Scheduler → Bool} (h : s.schedules now P = true) :
    ∃ t, schedule now s = .ok () t ∧ P t = true := by
  unfold schedules at h
  split at h
  · next t ht => exact ⟨t, ht, h⟩
  · cases h

/-- On one slot the `"producer"` is placed, so the `"consumer"` starts, and one of its tasks is
placed too. The other one waits, no node is chosen for it, and scheduling again changes nothing. -/
theorem schedule_leaves_nothing_sample : ∃ s w v t,
    submit Sample.config Sample.pipeline .willing .origin = .ok s ∧
      s.Visits .origin (sampleFirstLook s) ∧ (sampleFirstLook s).isExecuting = true ∧
      (sampleFirstLook s).status.isTerminal = false ∧
      (sampleFirstLook s).graph.get? "consumer" = none ∧
      schedule .origin (sampleFirstLook s) = .ok () w ∧
      w.backend.refusals = (sampleFirstLook s).backend.refusals ∧
      w.graph.get? "consumer" = some v ∧ t ∈ v.tasks ∧ t.isPending = true ∧
      selectNode (nodeLoads w.view w.graph.nodeCounts (w.graph.vertexNodeCounts "consumer") w.slow
        .origin) { mode := .none, avoid := [] } = none ∧
      schedule .origin w = .ok () w := by
  have htest : (submit Sample.config Sample.pipeline .willing .origin).toOption.any (fun s =>
      (sampleFirstLook s).isExecuting && !(sampleFirstLook s).status.isTerminal &&
        ((sampleFirstLook s).graph.get? "consumer").isNone &&
        (sampleFirstLook s).schedules .origin fun w =>
          decide (w.backend.refusals = (sampleFirstLook s).backend.refusals) &&
            (w.graph.get? "consumer").any fun v => v.tasks.any Task.isPending) = true := by
    decide +kernel
  obtain ⟨s, hs, heval⟩ := exists_of_submit htest
  simp only [Bool.and_eq_true, Bool.not_eq_true', Option.isNone_iff_eq_none] at heval
  obtain ⟨⟨⟨hexecuting, hlive⟩, hnew⟩, hschedule⟩ := heval
  have hvisits : s.Visits .origin (sampleFirstLook s) :=
    ⟨[], .event (.resources (Sample.view 1)), _, .resources, .single .look⟩
  have hleft := schedule_leaves_nothing hs hvisits hexecuting hlive .origin
  obtain ⟨w, hw, htests⟩ := exists_of_schedules hschedule
  rw [Bool.and_eq_true, decide_eq_true_eq] at htests
  obtain ⟨hsame, hconsumer⟩ := htests
  obtain ⟨v, hv, hwaits⟩ := (Option.any_eq_true _ _).1 hconsumer
  obtain ⟨t, ht, hpending⟩ := List.any_eq_true.1 hwaits
  obtain ⟨-, hnone, hagain⟩ := (ensures_of_eq_ok hw).1 hleft hsame
  exact ⟨s, w, v, t, hs, hvisits, hexecuting, hlive, hnew, hw, hsame, hv, ht, hpending,
    hnone "consumer" v hv t ht hpending _, hagain⟩

end Scheduler

end AdaptiveBatch
