import AdaptiveBatch.Plan
import AdaptiveBatch.Proofs.Scheduler.FirstStart

/-! # Plans and what becomes of them

A plan decides the parallelism of the sources for so many slots, by itself; the job that is submitted
gets there by waiting for slots and starting with what they allow. Both come to the same sizes, for
the slots that the job may use.

* **`SlotConfig.usable`** — how many of the offered slots a job may use;
* **`Scheduler.vertexPlan`**, **`planJob_eq_ok`** — the plan of a job that can be submitted;
* **`plan_predicts_run`** — the sources start as planned for the slots that they may use;
* **`plan_exceeds_run`** — planned for all the slots that are offered, they may start smaller. -/

namespace AdaptiveBatch

/-! ## Slots -/

/-- How many of the offered slots the job may use. -/
def SlotConfig.usable (c : SlotConfig) (offered : Nat) : Nat :=
  c.maxSlots.elim offered (min · offered)

/-- A view that is capped as the settings say offers the `usable` slots of those it has. -/
theorem ResourceView.slotCount_capped_eq (view : ResourceView) (c : SlotConfig) :
    (view.capped c.maxSlots).slotCount = c.usable view.slotCount := by
  unfold SlotConfig.usable
  cases c.maxSlots with
  | none => rfl
  | some max => exact view.slotCount_capped max

/-- So many slots of a single node. -/
def ResourceView.single (slots : Nat) : ResourceView :=
  { slotsPerTaskManager := slots : MiniCluster }.view

/-- The view `single slots` offers that many slots. -/
theorem ResourceView.slotCount_single (slots : Nat) : (single slots).slotCount = slots := by
  unfold single MiniCluster.view
  exact (slotCount_addNode ∅ (MiniCluster.nodeId 0) slots 1 _).trans (Nat.zero_add slots)

namespace Scheduler

variable {config : Config} {job : JobGraph} {backend : Backend} {start : Instant} {s : Scheduler}
  {v : JobVertex}

/-! ## Plans -/

/-- What is known about the inputs of a vertex before anything has started. -/
def inputsOfNew (job : JobGraph) (vertex : VertexId) : List InputStatistics :=
  (job.inputsOf vertex).map fun e =>
    { producer := e.source, exchange := e.exchange, producerParallelism := 0 }

/-- A source has no inputs. -/
theorem inputsOfNew_eq_nil {vertex : VertexId} (h : job.isSource vertex = true) :
    inputsOfNew job vertex = [] := by
  unfold inputsOfNew
  rw [List.isEmpty_iff.1 h]
  rfl

/-- What a new job plans for a vertex. -/
def vertexPlan (config : Config) (job : JobGraph) (available : Option ResourceView)
    (v : JobVertex) : VertexPlan where
  vertex := v.id
  isSource := job.isSource v.id
  isElastic := (Sizing.ofConfig config).isElastic v
  bounds := (Sizing.ofConfig config).bounds v
  parallelism :=
    if job.isSource v.id || v.parallelism.isSome then
      some ((Sizing.ofConfig config).decideWithin v (inputsOfNew job v.id) available)
    else none
  inputs := job.inputsOf v.id

/-- A computation for every element that succeeds each time succeeds for the list, with the image
under `g`. -/
theorem mapM_eq_ok {α β ε : Type} {f : α → Except ε β} {g : α → β} :
    ∀ {l : List α}, (∀ a ∈ l, f a = .ok (g a)) → l.mapM f = .ok (l.map g)
  | [], _ => rfl
  | a :: rest, h => by
    obtain ⟨hfirst, hrest⟩ := List.forall_mem_cons.1 h
    rw [List.mapM_cons, hfirst, mapM_eq_ok hrest]
    rfl

/-- As long as nothing has started, the statistics of the inputs are those of `inputsOfNew`: nothing
is known but the edges. -/
theorem inputStatistics_eq_ok (hgraph : s.graph = ∅) (vertex : VertexId) :
    s.inputStatistics vertex = .ok (inputsOfNew s.job vertex) := by
  apply mapM_eq_ok
  intro e _
  unfold statisticsOf
  rw [hgraph, ExecutionGraph.get?_empty]
  rfl

/-- As long as nothing has started, the decision for a vertex is that of `Sizing.decideWithin` for
`inputsOfNew`. -/
theorem decideParallelism_eq_ok (hgraph : s.graph = ∅) (hv : s.job.get? v.id = some v)
    (available : Option ResourceView) : s.decideParallelism v.id available =
      .ok (s.sizing.decideWithin v (inputsOfNew s.job v.id) available) := by
  unfold decideParallelism
  rw [hv]
  simp only [inputStatistics_eq_ok hgraph]
  rfl

/-- As long as nothing has started, a vertex is planned as `vertexPlan` says. -/
theorem planVertex_eq_ok (hgraph : s.graph = ∅) (hv : s.job.get? v.id = some v)
    (available : Option ResourceView) :
    s.planVertex available v = .ok (vertexPlan s.config s.job available v) := by
  unfold planVertex vertexPlan
  rw [decideParallelism_eq_ok hgraph hv]
  cases hknown : s.job.isSource v.id || v.parallelism.isSome with
  | true => simp only [hknown, if_true]; rfl
  | false => simp only [hknown, Bool.false_eq_true, if_false]; rfl

end Scheduler

open Scheduler

variable {config : Config} {job : JobGraph} {backend : Backend} {start : Instant} {s : Scheduler}

/-- A job that can be submitted has a plan, with a `vertexPlan` for every vertex in the order of
dependencies. -/
theorem planJob_eq_ok {order : List JobVertex} (hsubmit : submit config job backend start = .ok s)
    (horder : job.topologicalOrder = .ok order) (slots : Option Nat) :
    planJob config job slots = .ok {
      job := job.name
      slots
      requiredSlots := s.controller.requiredSlots
      desiredSlots := largest ((order.filter fun v => job.isSource v.id).map fun v =>
        (Sizing.ofConfig config).decideWithin v (inputsOfNew job v.id) none)
      avgDataVolumePerTask := config.auto.avgDataVolumePerTask
      vertices := order.map (vertexPlan config job (slots.map ResourceView.single)) } := by
  obtain ⟨hvalid, order', horder', hadmitted, rfl⟩ := submit_eq_ok_iff.1 hsubmit
  obtain rfl : order = order' := Except.ok.inj (horder.symm.trans horder')
  -- The plan submits the job once more, with a backend and at a time of its own.
  have hagain : submit config job .willing .origin = .ok {
      config, job
      backend := .willing
      order := order.map (·.id)
      speculation := .ofConfig config
      controller := .ofRequirements config.rescale
        (sourceRequirements (Sizing.ofConfig config) job) .origin } :=
    submit_eq_ok_iff.2 ⟨hvalid, order, horder, hadmitted, rfl⟩
  have hget (v : JobVertex) (hv : v ∈ order) : job.get? v.id = some v :=
    JobGraph.get?_of_mem_order horder hv
  have hvertices : (order.map (·.id)).filterMap job.get? = order := by
    rw [List.filterMap_map]
    exact (List.filterMap_congr hget).trans List.filterMap_some
  unfold planJob
  rw [hagain]
  simp only [Except.mapError, bind, Except.bind, hvertices]
  rw [mapM_eq_ok fun v hv => decideParallelism_eq_ok rfl (hget v (List.mem_of_mem_filter hv)) none]
  simp only []
  rw [mapM_eq_ok fun v hv => planVertex_eq_ok rfl (hget v hv) _]
  rfl

/-! ## Runs -/

/-- A source is planned what its `Sizing.requirement` allows for the slots. -/
theorem parallelism_vertexPlan {v : JobVertex} (hsource : job.isSource v.id = true) (slots : Nat) :
    (vertexPlan config job (some (.single slots)) v).parallelism =
      some (((Sizing.ofConfig config).requirement v []).achievable slots) := by
  show (if (job.isSource v.id || v.parallelism.isSome) = true then _ else _) = _
  rw [hsource, Bool.true_or, if_pos rfl, inputsOfNew_eq_nil hsource,
    Sizing.decideWithin_eq_achievable, ResourceView.slotCount_single]

/-- **The plan predicts the run.** A job that can be submitted has a plan for the slots that it may
use of those that are offered (`usable`). If these suffice, the job is offered them on a single
node, and it is polled then, then each source has the planned parallelism in its first execution
(`RunsFirst`) as soon as the job does not wait any more; and the job does not wait any more when it
was polled after the `stabilizationTimeout`. -/
theorem plan_predicts_run (hsubmit : submit config job backend start = .ok s) (offered : Nat) :
    ∃ plan, planJob config job (some (config.slots.usable offered)) = .ok plan ∧
      (plan.vertices.map (·.vertex)).Perm (job.vertices.map (·.id)) ∧
      (plan.requiredSlots ≤ config.slots.usable offered →
        ∀ (first : Instant) (polls : List Instant) (t : Scheduler),
          t = s.run ((first, .event (.resources (.single offered))) :: polling polls) →
          (t.status ≠ .waitingResources → ∀ entry ∈ plan.vertices,
            job.isSource entry.vertex = true → ∃ p, entry.parallelism = some p ∧
              t.graph.RunsFirst entry.vertex p) ∧
          ∀ deadline, first.add config.rescale.stabilizationTimeout = .ok deadline →
            ∀ now ∈ polls, deadline ≤ now → t.status ≠ .waitingResources) := by
  obtain ⟨order, horder, -, hs⟩ := submit_eq_ok hsubmit
  refine ⟨_, planJob_eq_ok hsubmit horder _, ?_, ?_⟩
  · rw [List.map_map]
    exact (JobGraph.perm_topologicalOrder horder).map _
  · rintro henough first polls t rfl
    have hslots : (s.viewing (.single offered)).view.slotCount = config.slots.usable offered := by
      rw [hs]
      exact (ResourceView.slotCount_capped_eq _ _).trans
        (congrArg _ (ResourceView.slotCount_single offered))
    have hrequired : s.controller.requiredSlots ≤ (s.viewing (.single offered)).view.slotCount := by
      rw [hslots]
      exact henough
    have hsettings : s.controller.settings = config.rescale := by rw [hs]; rfl
    obtain ⟨hrun, hdue⟩ := first_start hsubmit hrequired first polls
    constructor
    · intro hstatus entry hentry hsource
      obtain ⟨v, hv, rfl⟩ := List.mem_map.1 hentry
      refine ⟨_, parallelism_vertexPlan hsource _, ?_⟩
      apply (hrun.resolve_left hstatus).runs
      -- The job has started with what the slots allow, and that is what was planned.
      have hmem : v ∈ job.vertices := (JobGraph.perm_topologicalOrder horder).mem_iff.1 hv
      have hids := (JobGraph.topologicalOrder_eq_ok horder).2.1
      have hrequirements : s.controller.requirements = sourceRequirements (.ofConfig config) job := by
        rw [hs]
        rfl
      show (s.controller.requirements.map fun _ r =>
        r.achievable (s.viewing (.single offered)).view.slotCount)[v.id]? = _
      rw [Std.ExtTreeMap.getElem?_map, hrequirements, sourceRequirements_of_mem hids hmem hsource,
        hslots]
      rfl
    · intro deadline hdeadline now hmem hle
      rw [← hsettings] at hdeadline
      exact (hdue deadline hdeadline now hmem hle).status_ne

/-- For the small job and a single slot, the plan comes true when the timer fires at
`Sample.later`. -/
theorem plan_predicts_run_sample : ∃ s plan,
    submit Sample.config Sample.job .willing .origin = .ok s ∧
      planJob Sample.config Sample.job (some 1) = .ok plan ∧ plan.requiredSlots ≤ 1 ∧
        ∀ entry ∈ plan.vertices, ∃ p, entry.parallelism = some p ∧
          (s.run ((.origin, .event (.resources (.single 1))) ::
            polling [Sample.later])).graph.RunsFirst entry.vertex p := by
  have hsubmit : (submit Sample.config Sample.job .willing .origin).toOption.any
      (fun _ => true) = true := by
    decide +kernel
  have hfits : (planJob Sample.config Sample.job (some 1)).toOption.any (fun plan =>
      decide (plan.requiredSlots ≤ 1 ∧
        ∀ entry ∈ plan.vertices, Sample.job.isSource entry.vertex = true)) = true := by
    decide +kernel
  obtain ⟨s, hs, -⟩ := exists_of_submit hsubmit
  obtain ⟨plan, hplanned, -, hrun⟩ := plan_predicts_run hs 1
  have hplan : planJob Sample.config Sample.job (some 1) = .ok plan := hplanned
  rw [hplan] at hfits
  obtain ⟨hrequired, hsources⟩ := of_decide_eq_true hfits
  obtain ⟨hpredicted, hdue⟩ := hrun hrequired .origin [Sample.later] _ rfl
  have hstatus := hdue Sample.later rfl Sample.later List.mem_cons_self (Nat.le_refl _)
  exact ⟨s, plan, hs, hplan, hrequired, fun entry hentry =>
    hpredicted hstatus entry hentry (hsources entry hentry)⟩

/-! ### A plan that does not come true -/

/-- Vertices run as at most two tasks, and the job may use a single slot. -/
def limitedConfig : Config :=
  { auto := { maxParallelism := some 2 }, slots := { maxSlots := some 1 } }

/-- For two slots the plan gives the source two tasks, but the job that is offered two slots, of
which `limitedConfig` lets it use one, starts it with one. -/
theorem plan_exceeds_run : ∃ s plan,
    submit limitedConfig Sample.job .willing .origin = .ok s ∧
      planJob limitedConfig Sample.job (some 2) = .ok plan ∧ plan.requiredSlots ≤ 2 ∧
      plan.vertices.map (fun entry => (entry.vertex, entry.parallelism)) = [("source", some 2)] ∧
      (s.run ((.origin, .event (.resources (.single 2))) :: polling [Sample.later])).status ≠
        .waitingResources ∧
      (s.run ((.origin, .event (.resources (.single 2))) ::
        polling [Sample.later])).graph.RunsFirst "source" 1 := by
  have hrun : (submit limitedConfig Sample.job .willing .origin).toOption.any (fun s =>
      decide ((s.run ((.origin, .event (.resources (.single 2))) ::
          polling [Sample.later])).status ≠ .waitingResources ∧
        (s.run ((.origin, .event (.resources (.single 2))) ::
          polling [Sample.later])).graph.RunsFirst "source" 1)) = true := by
    decide +kernel
  obtain ⟨s, hs, hstart⟩ := exists_of_submit hrun
  have hplan : (planJob limitedConfig Sample.job (some 2)).toOption.any (fun plan =>
      decide (plan.requiredSlots ≤ 2 ∧
        plan.vertices.map (fun entry => (entry.vertex, entry.parallelism)) =
          [("source", some 2)])) = true := by
    decide +kernel
  cases hp : planJob limitedConfig Sample.job (some 2) with
  | error i => rw [hp] at hplan; cases hplan
  | ok plan =>
    rw [hp] at hplan
    obtain ⟨hrequired, hvertices⟩ := of_decide_eq_true hplan
    exact ⟨s, plan, hs, rfl, hrequired, hvertices, of_decide_eq_true hstart⟩

end AdaptiveBatch
