import AdaptiveBatch.Proofs.Rescale.Spacing
import AdaptiveBatch.Proofs.Scheduler.Ledger
import AdaptiveBatch.Proofs.Scheduler.Pending
import AdaptiveBatch.Proofs.Scheduler.Refusals

/-! # Restarts that are carried out

A restart is carried out in two parts. The unfinished vertices of the request start over, and the
controller waits for the slots of its new plan, which is its current plan with the pending changes.
If the slots suffice, the same call starts the job with that plan, and every vertex that does not
have its planned parallelism would start over then. None is left to do so: the vertices with a
pending change have just got it, and the others run as the current plan says. Then the tasks that
need a slot are placed, and this adds attempts but takes none away.

* **`VertexExecution.Extends`** — a generation that has kept its attempts;
* **`Scheduler.restartedAll`**, **`Scheduler.resumed`** — the state after each of the two parts;
* **`Scheduler.applyScale_eq`** — both parts, when no vertex is left to start over;
* **`Scheduler.CarriedOut`** — what a restart makes of the vertices;
* **`Scheduler.last_request_carried_out`** — the same for every history. -/

namespace AdaptiveBatch

/-! ## Attempts that are kept -/

/-- The same generation, in which every task has its attempts as they were, and maybe more. -/
structure VertexExecution.Extends (v v' : VertexExecution) : Prop where
  /-- It is the same generation. -/
  generation_eq : v'.generation = v.generation
  /-- It is as large. -/
  parallelism_eq : v'.parallelism = v.parallelism
  /-- Every task is as it was, except for further attempts. -/
  task : ∀ (k : Nat) (t : Task), v.tasks[k]? = some t →
    ∃ attempts, v'.tasks[k]? = some { t with attempts := t.attempts ++ attempts }

namespace VertexExecution

variable {v v' v'' : VertexExecution}

/-- A generation extends itself, by no attempts. -/
theorem Extends.refl (v : VertexExecution) : v.Extends v :=
  ⟨rfl, rfl, fun _ t ht => ⟨[], by rw [List.append_nil]; exact ht⟩⟩

/-- Extending a generation is transitive: the further attempts are put one after the other. -/
theorem Extends.trans (h : v.Extends v') (h' : v'.Extends v'') : v.Extends v'' where
  generation_eq := h'.generation_eq.trans h.generation_eq
  parallelism_eq := h'.parallelism_eq.trans h.parallelism_eq
  task k t ht := by
    obtain ⟨attempts, ht'⟩ := h.task k t ht
    obtain ⟨more, ht''⟩ := h'.task k _ ht'
    exact ⟨attempts ++ more, by rw [ht'', List.append_assoc]⟩

/-- One more attempt of the task `k` extends the generation. -/
theorem extends_push (v : VertexExecution) (k : Nat) (a : Attempt) :
    v.Extends { v with tasks := v.tasks.modify k (·.push a) } where
  generation_eq := rfl
  parallelism_eq := rfl
  task i t ht := by
    rw [List.getElem?_modify, ht]
    by_cases hki : k = i
    · exact ⟨[a], by simp [hki, Task.push]⟩
    · exact ⟨[], by simp [hki]⟩

end VertexExecution

/-- One more attempt of any task extends every generation of the graph. -/
theorem ExecutionGraph.extends_push {g : ExecutionGraph} {vertex : VertexId} {v : VertexExecution}
    (hv : g.get? vertex = some v) (a : Attempt) :
    ∃ v', (g.push a).get? vertex = some v' ∧ v.Extends v' := by
  unfold push
  rw [get?_modifyTask, hv]
  split
  · exact ⟨_, rfl, v.extends_push _ a⟩
  · exact ⟨v, rfl, .refl v⟩

namespace Scheduler

open Scheduling ExecutionGraph

variable {s t : Scheduler} {now : Instant} {vertex : VertexId} {id : AttemptId}
  {request pending : ScaleRequest} {p : Nat} {v : VertexExecution}

/-- Every attempt of a vertex stays in a step of a pass: its generation `v` is only extended. -/
theorem PassStep.extends (h : PassStep now s t) (hv : s.graph.get? vertex = some v) :
    ∃ v', t.graph.get? vertex = some v' ∧ v.Extends v' := by
  cases h with
  | place => exact extends_push hv _
  | @start _ _ id executing live ready =>
    have hne : id ≠ vertex := by
      rintro rfl
      rw [(mem_readyVertices.1 ready).2.1] at hv
      cases hv
    exact ⟨v, (get?_regenerate _ vertex).trans ((if_neg hne).trans hv), .refl v⟩

/-- Every attempt of a vertex stays in any number of passes: its generation `v` is only extended. -/
theorem PassSteps.extends (h : PassSteps now s t) (hv : s.graph.get? vertex = some v) :
    ∃ v', t.graph.get? vertex = some v' ∧ v.Extends v' := by
  refine h.keeps (J := fun t => ∃ v', t.graph.get? vertex = some v' ∧ v.Extends v') ?_
    ⟨v, hv, .refl v⟩
  rintro t u hstep ⟨v', hv', hextends⟩
  obtain ⟨v'', hv'', hextends'⟩ := hstep.extends hv'
  exact ⟨v'', hv'', hextends.trans hextends'⟩

/-- No attempt is given up in a pass: `canceledIds` stays. -/
theorem PassSteps.canceledIds_eq (h : PassSteps now s t) :
    canceledIds t.backend.calls = canceledIds s.backend.calls := by
  refine h.keeps (J := fun t => canceledIds t.backend.calls = canceledIds s.backend.calls) ?_ rfl
  intro t u hstep ht
  cases hstep with
  | place => exact ht
  | start => exact ht

/-! ## The vertices of a request start over -/

/-- The state in which the vertices of a request have started over, and the job waits. -/
def restartedAll (s : Scheduler) (request : ScaleRequest) (now : Instant) : Scheduler :=
  { s.restartedEach (s.toRestart request.plan.toList) now with
    rescales := s.rescales + 1
    controller := s.controller.awaitRestart now }

/-- Without a vertex that is to run without tasks, all restarts are carried out, and lead to
`s.restartedEach`. -/
theorem forM_restartPlanned_eq_ok : ∀ (planned : List (VertexId × Nat)) (s : Scheduler),
    (planned.map (·.1)).Nodup → (∀ entry ∈ planned, entry.2 ≠ 0) →
      planned.forM (restartPlanned now) s = .ok () (s.restartedEach (s.toRestart planned) now)
  | [], _, _, _ => rfl
  | (vertex, parallelism) :: rest, s, hnodup, hpos => by
    obtain ⟨hvertex, hrest⟩ := List.nodup_cons.1 hnodup
    obtain ⟨hfirst, hlater⟩ := List.forall_mem_cons.1 hpos
    have hothers : ∀ entry ∈ rest, entry.1 ≠ vertex := by
      rintro entry hentry rfl
      exact hvertex (List.mem_map.2 ⟨entry, hentry, rfl⟩)
    have hplanned : restartPlanned now (vertex, parallelism) s =
        (if (s.graph.get? vertex).any (!·.isFinished) = true then restart vertex parallelism now
          else pure ()) s := rfl
    show EStateM.bind (restartPlanned now (vertex, parallelism))
      (fun _ => rest.forM (restartPlanned now)) s = _
    unfold EStateM.bind toRestart
    rw [hplanned, List.filter_cons]
    by_cases hopen : (s.graph.get? vertex).any (!·.isFinished) = true
    · rw [if_pos hopen, if_pos hopen, restart_of_ne_zero hfirst]
      show rest.forM (restartPlanned now) (s.restarted vertex parallelism now) = _
      rw [forM_restartPlanned_eq_ok rest _ hrest hlater, toRestart_restarted hothers]
      rfl
    · rw [if_neg hopen, if_neg hopen]
      exact forM_restartPlanned_eq_ok rest s hrest hlater

/-- A request that gives every vertex a task is carried out to its end, and leads to
`s.restartedAll`. -/
theorem restartAll_eq (hpos : request.Positive) :
    restartAll request now s = .ok () (s.restartedAll request now) := by
  have hentries : ∀ entry ∈ request.plan.toList, entry.2 ≠ 0 := fun entry hentry =>
    hpos entry.1 entry.2 (Std.ExtTreeMap.mem_toList_iff_getElem?_eq_some.1 hentry)
  have hloop : request.plan.toList.forM (restartPlanned now) s = .ok () _ :=
    forM_restartPlanned_eq_ok _ s request.plan.nodup_vertices hentries
  show EStateM.bind _ _ s = _
  rw [EStateM.bind, hloop]
  -- The restarts have left the controller and the counters alone.
  unfold restartedAll
  rw [restartedEach_frame]
  rfl

/-- A vertex that is not listed in `planned` stays as it was. -/
theorem get?_restartedEach_of_ne : ∀ (planned : List (VertexId × Nat)) (s : Scheduler),
    (∀ entry ∈ planned, entry.1 ≠ vertex) →
      (s.restartedEach planned now).graph.get? vertex = s.graph.get? vertex
  | [], _, _ => rfl
  | entry :: rest, s, h => by
    obtain ⟨hne, hrest⟩ := List.forall_mem_cons.1 h
    show ((s.restarted entry.1 entry.2 now).restartedEach rest now).graph.get? vertex = _
    rw [get?_restartedEach_of_ne rest _ hrest]
    exact (get?_regenerate _ vertex).trans (if_neg hne)

/-- A vertex listed in `planned` has `fresh` tasks in its next generation. -/
theorem get?_restartedEach_of_mem : ∀ (planned : List (VertexId × Nat)) (s : Scheduler),
    (planned.map (·.1)).Nodup → (vertex, p) ∈ planned →
      (s.restartedEach planned now).graph.get? vertex =
        some (.fresh vertex (s.graph.nextGeneration vertex) p now)
  | [], _, _, h => absurd h List.not_mem_nil
  | entry :: rest, s, hnodup, h => by
    obtain ⟨hfirst, hrest⟩ := List.nodup_cons.1 hnodup
    have hne : ∀ other ∈ rest, other.1 ≠ entry.1 := fun other hother heq =>
      hfirst (List.mem_map.2 ⟨other, hother, heq⟩)
    show ((s.restarted entry.1 entry.2 now).restartedEach rest now).graph.get? vertex = _
    rcases List.mem_cons.1 h with rfl | hmem
    · rw [get?_restartedEach_of_ne rest _ hne]
      exact (get?_regenerate p vertex).trans (if_pos rfl)
    · -- The first restart concerns another vertex.
      have hget : (s.restarted entry.1 entry.2 now).graph.get? vertex = s.graph.get? vertex :=
        (get?_regenerate _ vertex).trans (if_neg (Ne.symm (hne _ hmem)))
      rw [get?_restartedEach_of_mem rest _ hrest hmem, nextGeneration, nextGeneration, hget]

/-- The attempts that are given up are the active ones of the vertices listed in `planned`. -/
theorem mem_canceledIds_restartedEach : ∀ (planned : List (VertexId × Nat)) (s : Scheduler),
    s.graph.WellFormed → (∀ entry ∈ planned, entry.2 ≠ 0) →
      (id ∈ canceledIds (s.restartedEach planned now).backend.calls ↔
        id ∈ canceledIds s.backend.calls ∨
          s.graph.IsActive id ∧ id.vertex ∈ planned.map (·.1))
  | [], s, _, _ => by
    show id ∈ canceledIds s.backend.calls ↔ _
    simp
  | entry :: rest, s, hs, hpos => by
    obtain ⟨hfirst, hrest⟩ := List.forall_mem_cons.1 hpos
    have hcanceled : id ∈ canceledIds (s.restarted entry.1 entry.2 now).backend.calls ↔
        (id.vertex = entry.1 ∧ s.graph.IsActive id) ∨ id ∈ canceledIds s.backend.calls :=
      Backend.mem_canceledIds_cancelAll.trans (or_congr_left (mem_activeIdsOf hs))
    have hactive : (s.restarted entry.1 entry.2 now).graph.IsActive id ↔
        s.graph.IsActive id ∧ id.vertex ≠ entry.1 := isActive_regenerate entry.2
    show id ∈ canceledIds ((s.restarted entry.1 entry.2 now).restartedEach rest now).backend.calls ↔
      _
    rw [mem_canceledIds_restartedEach rest _ (hs.regenerate hfirst) hrest, hcanceled, hactive,
      List.map_cons, List.mem_cons]
    tauto

/-- The vertices that start over are those of the `plan` that have started and not finished. -/
theorem mem_toRestart {plan : ParallelismPlan} : (vertex, p) ∈ s.toRestart plan.toList ↔
    plan[vertex]? = some p ∧ (s.graph.unfinished? vertex).isSome = true := by
  rw [toRestart, List.mem_filter, Std.ExtTreeMap.mem_toList_iff_getElem?_eq_some,
    isSome_unfinished?]

/-- No vertex starts over twice. -/
theorem nodup_toRestart (s : Scheduler) (plan : ParallelismPlan) :
    ((s.toRestart plan.toList).map (·.1)).Nodup :=
  plan.nodup_vertices.sublist (List.filter_sublist.map _)

/-- A vertex with the generation `v` is unfinished iff `v` is not finished. -/
theorem isSome_unfinished?_of_get? (hv : s.graph.get? vertex = some v) :
    (s.graph.unfinished? vertex).isSome = !v.isFinished := by
  rw [isSome_unfinished?, hv, Option.any_some]

/-- An unfinished vertex of the `request` has `fresh` tasks in its next generation. -/
theorem get?_restartedAll_of_unfinished (hplan : request.plan[vertex]? = some p)
    (hv : s.graph.get? vertex = some v) (hopen : v.isFinished = false) :
    (s.restartedAll request now).graph.get? vertex =
      some (.fresh vertex (v.generation + 1) p now) := by
  have hmem : (vertex, p) ∈ s.toRestart request.plan.toList :=
    mem_toRestart.2 ⟨hplan, by rw [isSome_unfinished?_of_get? hv, hopen]; rfl⟩
  refine (get?_restartedEach_of_mem _ s (nodup_toRestart s request.plan) hmem).trans ?_
  rw [nextGeneration, hv]
  rfl

/-- All vertices that are finished, or not in the `request`, stay as they were. -/
theorem get?_restartedAll_of_others (hv : s.graph.get? vertex = some v)
    (hother : v.isFinished = true ∨ request.plan[vertex]? = none) :
    (s.restartedAll request now).graph.get? vertex = some v := by
  refine (get?_restartedEach_of_ne _ s ?_).trans hv
  rintro ⟨other, q⟩ hmem rfl
  obtain ⟨hplan, hopen⟩ := mem_toRestart.1 hmem
  rw [isSome_unfinished?_of_get? hv] at hopen
  rcases hother with hfinished | hnone
  · rw [hfinished] at hopen
    cases hopen
  · rw [hnone] at hplan
    cases hplan

/-- The attempts that are given up are the active ones of the unfinished vertices of the
`request`. -/
theorem mem_canceledIds_restartedAll (hs : s.graph.WellFormed) (hpos : request.Positive) :
    id ∈ canceledIds (s.restartedAll request now).backend.calls ↔
      id ∈ canceledIds s.backend.calls ∨ s.graph.IsActive id ∧
        (request.plan[id.vertex]?).isSome = true ∧ s.graph.isFinished id.vertex = false := by
  have hentries : ∀ entry ∈ s.toRestart request.plan.toList, entry.2 ≠ 0 := fun entry hentry =>
    hpos entry.1 entry.2 (mem_toRestart.1 hentry).1
  refine (mem_canceledIds_restartedEach _ s hs hentries).trans (or_congr_right ?_)
  refine and_congr_right fun hactive => ?_
  obtain ⟨w, _, hw, -⟩ := hactive.exists_task
  have hstarted : (s.graph.get? id.vertex).isSome = true := by rw [hw]; rfl
  have hunfinished : (s.graph.unfinished? id.vertex).isSome = true ↔
      s.graph.isFinished id.vertex = false := by
    rw [isFinished_eq, hstarted]
    simp
  rw [List.mem_map, Option.isSome_iff_exists, ← hunfinished]
  constructor
  · rintro ⟨⟨other, q⟩, hmem, rfl⟩
    obtain ⟨hplan, hopen⟩ := mem_toRestart.1 hmem
    exact ⟨⟨q, hplan⟩, hopen⟩
  · rintro ⟨⟨q, hplan⟩, hopen⟩
    exact ⟨(id.vertex, q), mem_toRestart.2 ⟨hplan, hopen⟩, rfl⟩

/-! ## The job starts again -/

/-- The state in which the job runs with a plan. -/
def resumed (s : Scheduler) (target : ParallelismPlan) (now : Instant) : Scheduler :=
  { s with
    controller := { s.controller with
      phase := .running now
      current := target
      runningView := s.controller.view }
    runningSince := some now }

/-- A look starts the job that waits for its slots, and no vertex, if all run as planned: it leads
to `s.resumed`. -/
theorem look_eq_resumed {since : Instant} {target : ParallelismPlan} {timer : Option Stabilization}
    (hphase : s.controller.phase = .waiting since target timer)
    (hfits : target.slots ≤ s.view.slotCount)
    (hsized : ∀ (vertex : VertexId) (p : Nat), target[vertex]? = some p →
      s.needsGeneration vertex p = false) :
    look now s = .ok none (s.resumed target now) := by
  have hevaluate : s.controller.evaluate now = .ok (s.controller.start target false now) := by
    have hslots : target.slots ≤ s.controller.view.slotCount := hfits
    rw [RescaleController.evaluate, hphase]
    show RescaleController.evaluateWaiting _ _ _ _ _ = _
    rw [RescaleController.evaluateWaiting, if_pos hslots]
    rfl
  rw [eq_ok_iff]
  unfold look
  rw [ensures_bind, ensures_onController, hevaluate]
  refine ⟨?_, fun _ heq => by cases heq⟩
  rintro action c heq
  cases heq
  show ((target.toList.forM (startPlanned now)) >>= fun _ => _).Ensures _ _ _
  rw [ensures_bind]
  refine (Ensures.forM (E := fun _ => False) (fun rest t => (∀ entry ∈ rest,
    s.needsGeneration entry.1 entry.2 = false) ∧ t = { s with controller := _ }) ?_ _ _
      ⟨?_, rfl⟩).mono ?_ fun _ => False.elim
  · rintro entry rest t ⟨hrest, rfl⟩
    obtain ⟨hentry, hlater⟩ := List.forall_mem_cons.1 hrest
    unfold startPlanned
    rw [ensures_bind, ensures_get]
    split
    · next hneeds => exact absurd hneeds (Bool.eq_false_iff.1 hentry)
    · exact ⟨hlater, rfl⟩
  · intro entry hentry
    exact hsized entry.1 entry.2 (Std.ExtTreeMap.mem_toList_iff_getElem?_eq_some.1 hentry)
  · rintro _ t ⟨-, rfl⟩
    exact ⟨rfl, rfl⟩

/-- A vertex whose generation has the `parallelism` that is planned needs no new one. -/
theorem needsGeneration_eq_false (hv : s.graph.get? vertex = some v) (hp : v.parallelism = p) :
    s.needsGeneration vertex p = false := by
  unfold needsGeneration
  rw [hv]
  simp [hp]

/-- Once the vertices of the `request` have started over, every vertex runs as the new plan says and
needs no further generation. -/
theorem needsGeneration_restartedAll (hagreed : s.Agreed) (hexecuting : s.isExecuting = true)
    (houtstanding : s.Outstanding request.plan pending.plan)
    (hp : (s.controller.current.override pending.plan)[vertex]? = some p) :
    (s.restartedAll request now).needsGeneration vertex p = false := by
  have hchange := houtstanding.changes_eq vertex
  rw [ParallelismPlan.getElem?_override] at hp
  cases hpending : pending.plan[vertex]? with
  | some q =>
    -- The vertex waits for a change, so it is unfinished and has started over.
    rw [hpending, Option.some_or] at hp
    cases hp
    rw [hpending] at hchange
    split at hchange
    · cases hchange
    · next hopen =>
      obtain ⟨v, hv⟩ := Option.isSome_iff_exists.1 (houtstanding.started vertex p hchange.symm)
      rw [isFinished, hv, Option.any_some, Bool.not_eq_true] at hopen
      exact needsGeneration_eq_false (get?_restartedAll_of_unfinished hchange.symm hv hopen) rfl
  | none =>
    -- The vertex runs as the current plan says, and the request does not speak about it.
    rw [hpending, Option.none_or, hagreed hexecuting, unfinished?, Option.map_eq_some_iff] at hp
    obtain ⟨v, hv, hsize⟩ := hp
    obtain ⟨hget, hopen⟩ := Option.filter_eq_some_iff.1 hv
    rw [hpending, isFinished, hget, Option.any_some, if_neg (by simpa using hopen)] at hchange
    exact needsGeneration_eq_false (get?_restartedAll_of_others hget (Or.inr hchange.symm)) hsize

/-- A restart whose new plan fits is carried out, and the job runs with this plan at once: the state
is `resumed`, and the passes follow. -/
theorem applyScale_eq (hlive : s.status.isTerminal = false) (hagreed : s.Agreed)
    (hphase : s.controller.phase = .evaluating pending) (hpos : request.Positive)
    (houtstanding : s.Outstanding request.plan pending.plan)
    (hfits : (s.controller.current.override pending.plan).slots ≤ s.view.slotCount) :
    applyScale request now s = schedule now ((s.restartedAll request now).resumed
      (s.controller.current.override pending.plan) now) := by
  have hexecuting : s.isExecuting = true := by rw [isExecuting, hphase]
  have hwaiting : (s.restartedAll request now).controller = { s.controller with
      phase := .waiting now (s.controller.current.override pending.plan) none } := by
    show s.controller.awaitRestart now = _
    rw [RescaleController.awaitRestart, hphase]
  have hfits' : (s.controller.current.override pending.plan).slots ≤
      (s.restartedAll request now).view.slotCount := by
    rw [view, hwaiting]
    exact hfits
  have hlook : look now (s.restartedAll request now) = .ok none _ :=
    look_eq_resumed (congrArg (·.phase) hwaiting) hfits' fun vertex p hp =>
      needsGeneration_restartedAll hagreed hexecuting houtstanding hp
  show (if (s.status != .rescaling) = true then pure () else
    restartAll request now >>= fun _ => look now >>= fun _ => schedule now : Scheduling Unit) s = _
  rw [status_of_evaluating hphase hlive, if_neg (by decide)]
  show EStateM.bind _ _ s = _
  rw [EStateM.bind, restartAll_eq hpos]
  show EStateM.bind _ _ (s.restartedAll request now) = _
  rw [EStateM.bind, hlook]

/-- The state after `.scaled request` is where the call `x` ends that carrying it out comes to. -/
theorem after_scaled {x : Scheduling Unit} (h : applyScale request now s = x t) :
    s.after now (.event (.scaled request)) = x.final t := by
  refine (ensures_final (P := fun u => u = x.final t)).1 ?_
  show (applyScale request now >>= _ : Scheduling (Option ScaleRequest)).Ensures s _ _
  rw [ensures_bind, ensures_congr h]
  exact ensures_final.2 rfl

/-! ## What a restart touches -/

/-- The restart for a request has been carried out: the state before it and the one after it. -/
structure CarriedOut (request : ScaleRequest) (now : Instant) (s t : Scheduler) : Prop where
  /-- The job runs. -/
  phase_eq : t.controller.phase = .running now
  /-- Every vertex of the request had started. -/
  started : ∀ (vertex : VertexId) (p : Nat), request.plan[vertex]? = some p →
    (s.graph.get? vertex).isSome = true
  /-- An unfinished vertex of the request runs in its next generation, as large as asked for. -/
  restarted : ∀ (vertex : VertexId) (p : Nat) (v : VertexExecution),
    request.plan[vertex]? = some p → s.graph.get? vertex = some v → v.isFinished = false →
      ∃ v', t.graph.get? vertex = some v' ∧ v'.generation = v.generation + 1 ∧ v'.parallelism = p
  /-- Every other vertex keeps its generation and its attempts. -/
  kept : ∀ (vertex : VertexId) (v : VertexExecution), s.graph.get? vertex = some v →
    v.isFinished = true ∨ request.plan[vertex]? = none →
      ∃ v', t.graph.get? vertex = some v' ∧ v.Extends v'
  /-- The attempts that are given up are the active ones of the unfinished vertices of the
  request. -/
  canceled : ∀ id, id ∈ canceledIds t.backend.calls ↔ id ∈ canceledIds s.backend.calls ∨
    id ∈ s.activeIds ∧ (request.plan[id.vertex]?).isSome = true ∧
      s.graph.isFinished id.vertex = false
  /-- They hold no slot any more. -/
  stopped : ∀ id ∈ s.activeIds, (request.plan[id.vertex]?).isSome = true →
    s.graph.isFinished id.vertex = false → id ∉ t.activeIds

/-- The passes after a restart add attempts, and leave the rest of it as it is; so it is
`CarriedOut`. -/
theorem carriedOut_of_passSteps {target : ParallelismPlan} (hs : s.Sound) (hpos : request.Positive)
    (houtstanding : s.Outstanding request.plan pending.plan) (ht : t.Sound)
    (hpass : PassSteps now ((s.restartedAll request now).resumed target now) t) :
    CarriedOut request now s t := by
  have hrestarted (vertex : VertexId) (p : Nat) (v : VertexExecution)
      (hplan : request.plan[vertex]? = some p) (hv : s.graph.get? vertex = some v)
      (hopen : v.isFinished = false) : ∃ v', t.graph.get? vertex = some v' ∧
        v'.generation = v.generation + 1 ∧ v'.parallelism = p := by
    obtain ⟨v', hv', hextends⟩ := hpass.extends (get?_restartedAll_of_unfinished hplan hv hopen)
    exact ⟨v', hv', hextends.generation_eq, hextends.parallelism_eq⟩
  refine ⟨hpass.sameCourse.phase_eq, houtstanding.started, hrestarted, ?_, ?_, ?_⟩
  · intro vertex v hv hother
    exact hpass.extends (get?_restartedAll_of_others hv hother)
  · intro id
    rw [hpass.canceledIds_eq, show id ∈ s.activeIds ↔ _ from mem_activeIds hs.wellFormed]
    exact mem_canceledIds_restartedAll hs.wellFormed hpos
  · intro id hactive hplan hopen hstill
    obtain ⟨v, _, hv, hgeneration, -⟩ :=
      ((mem_activeIds hs.wellFormed).1 hactive : s.graph.IsActive id).exists_task
    obtain ⟨w, _, hw, hgeneration', -⟩ :=
      ((mem_activeIds ht.wellFormed).1 hstill : t.graph.IsActive id).exists_task
    obtain ⟨p, hp⟩ := Option.isSome_iff_exists.1 hplan
    rw [isFinished, hv, Option.any_some] at hopen
    -- The vertex is in its next generation, to which the attempt does not belong.
    obtain ⟨w', hw', hnext, -⟩ := hrestarted id.vertex p v hp hv hopen
    obtain rfl : w' = w := Option.some.inj (hw'.symm.trans hw)
    omega

/-- A restart whose new plan fits is not refused, and touches what was asked for: it is
`CarriedOut`. -/
theorem carriedOut_after (hs : s.Sound) (htracked : s.Tracked) (hagreed : s.Agreed)
    (hlive : s.status.isTerminal = false) (hphase : s.controller.phase = .evaluating pending)
    (hpos : request.Positive) (houtstanding : s.Outstanding request.plan pending.plan)
    (hfits : (s.controller.current.override pending.plan).slots ≤ s.view.slotCount)
    (now : Instant) :
    (∀ e t, (Event.scaled request).call now s ≠ .error (.refused e) t) ∧
      CarriedOut request now s (s.after now (.event (.scaled request))) := by
  have hopen : Opening now s (.event (.scaled request)) (s.restartedAll request now) :=
    final_of_eq_ok (restartAll_eq hpos) ▸ .scaled (status_of_evaluating hphase hlive)
  have happly : applyScale request now s = schedule now ((s.restartedAll request now).resumed
      (s.controller.current.override pending.plan) now) :=
    applyScale_eq hlive hagreed hphase hpos houtstanding hfits
  have hresumed : ((s.restartedAll request now).resumed
      (s.controller.current.override pending.plan) now).Sound := (hopen.sound hs).of_eq rfl rfl
  have hadmitted : ((s.restartedAll request now).resumed
      (s.controller.current.override pending.plan) now).Admitted :=
    (hopen.tracked htracked).admitted.sameJob ⟨rfl, rfl, rfl⟩
  constructor
  · intro e
    show (applyScale request now >>= fun _ => pure none).Avoids e s
    rw [avoids_bind]
    refine ⟨fun t heq => ?_, fun _ u _ => avoids_pure none u⟩
    rw [happly] at heq
    exact avoids_schedule hresumed hadmitted t heq
  · rw [after_scaled happly]
    have hpass : PassSteps now _ _ := passSteps_schedule hresumed
    exact carriedOut_of_passSteps hs hpos houtstanding (hpass.steps.sound hresumed) hpass

/-- **A restart touches exactly what was asked for.** Take any history of a submitted job in which
only returned requests are carried out (`Faithful`) — in any order, late or repeatedly — and no call
is abandoned. Let a restart be asked for, let the job not have ended, and let the slots suffice for
every parallelism of the current plan with the pending changes. Then the last request that was
returned is carried out without a refusal, and the job runs with the new plan at once
(`CarriedOut`). The vertices of the request that are still unfinished run in their next generation,
as large as asked for, and their attempts are given up; every other vertex keeps its generation and
its attempts as they were. -/
theorem last_request_carried_out {config : Config} {job : JobGraph} {backend : Backend}
    {start : Instant} (h : submit config job backend start = .ok s) (history : History)
    (hfaithful : s.Faithful history) (hcompletes : s.completes history = true)
    (hphase : (s.run history).controller.phase = .evaluating pending)
    (hlive : (s.run history).status.isTerminal = false)
    (hfits : ∀ (vertex : VertexId) (p : Nat),
      ((s.run history).controller.current.override pending.plan)[vertex]? = some p →
        p ≤ (s.run history).view.slotCount) (now : Instant) :
    ∃ request, (s.returned history).getLast? = some request ∧
      (∀ e t, (Event.scaled request).call now (s.run history) ≠ .error (.refused e) t) ∧
      CarriedOut request now (s.run history)
        ((s.run history).after now (.event (.scaled request))) := by
  obtain ⟨hs, htracked, hagreed, hpositive⟩ := consistent_run h history hfaithful
  obtain ⟨request, hlast, houtstanding⟩ := awaited_run h history hfaithful hcompletes pending
    (status_of_evaluating hphase hlive) hphase
  exact ⟨request, hlast, carriedOut_after hs htracked hagreed hlive hphase
    (hpositive request (List.mem_of_getLast? hlast)) houtstanding
    (ParallelismPlan.slots_le_iff.2 hfits) now⟩

/-! ### A vertex that finishes before the restart -/

/-- Two elastic sources and a fixed one. -/
def sampleSources : JobGraph where
  name := "sources"
  vertices := [{ id := "a" }, { id := "b" }, { id := "c", parallelism := some 1 }]

/-- The only task of the second source finishes while the restart is asked for. -/
def sampleMeanwhile : History := Sample.growth ++ [(Sample.latest,
  .event (.finished { vertex := "b", subtask := 0, generation := 1, number := 0 } none none))]

/-- Both elastic sources are to grow, and only `"a"` starts over, since `"b"` has finished
meanwhile. -/
theorem last_request_carried_out_sample : ∃ s request a b,
    submit Sample.config sampleSources .willing .origin = .ok s ∧
      (s.returned sampleMeanwhile).getLast? = some request ∧
      request.plan["a"]? = some 2 ∧ request.plan["b"]? = some 2 ∧
      ((s.run sampleMeanwhile).after Sample.latest (.event (.scaled request))).graph.get? "a" =
        some a ∧ a.generation = 2 ∧ a.parallelism = 2 ∧
      ((s.run sampleMeanwhile).after Sample.latest (.event (.scaled request))).graph.get? "b" =
        some b ∧ b.generation = 1 ∧ b.parallelism = 1 := by
  have heval : (submit Sample.config sampleSources .willing .origin).toOption.any
      (fun s => decide (s.Faithful sampleMeanwhile) && (s.completes sampleMeanwhile &&
        (!(s.run sampleMeanwhile).status.isTerminal &&
        ((s.run sampleMeanwhile).controller.carriesOut .restarted &&
        ((s.run sampleMeanwhile).controller.aim?.all (fun plan =>
            decide (plan.slots ≤ (s.run sampleMeanwhile).view.slotCount)) &&
        ((s.returned sampleMeanwhile).getLast?.all (fun request =>
            decide (request.plan["a"]? = some 2 ∧ request.plan["b"]? = some 2)) &&
        (((s.run sampleMeanwhile).graph.get? "a").any (fun v =>
            decide (v.isFinished = false ∧ v.generation = 1)) &&
        ((s.run sampleMeanwhile).graph.get? "b").any (fun v =>
            decide (v.isFinished = true ∧ v.generation = 1 ∧ v.parallelism = 1))))))))) = true := by
    decide +kernel
  obtain ⟨s, hs, htests⟩ := exists_of_submit heval
  simp only [Bool.and_eq_true] at htests
  obtain ⟨hfaithful, hcompletes, hlive, hasked, hfits, hplan, ha, hb⟩ := htests
  obtain ⟨pending, hphase⟩ : ∃ pending,
      (s.run sampleMeanwhile).controller.phase = .evaluating pending := by
    by_contra hnone
    rw [RescaleController.carriesOut_of_not_pending (not_exists.1 hnone)] at hasked
    cases hasked
  unfold RescaleController.aim? at hfits
  rw [hphase] at hfits
  obtain ⟨request, hlast, -, hcarried⟩ := last_request_carried_out hs sampleMeanwhile
    (of_decide_eq_true hfaithful) hcompletes hphase (by simpa using hlive)
    (ParallelismPlan.slots_le_iff.1 (of_decide_eq_true hfits)) Sample.latest
  rw [hlast, Option.all_some] at hplan
  obtain ⟨hplanA, hplanB⟩ := of_decide_eq_true hplan
  obtain ⟨v, hv, htest⟩ := (Option.any_eq_true _ _).1 ha
  obtain ⟨hopen, hgeneration⟩ := of_decide_eq_true htest
  obtain ⟨w, hw, htest⟩ := (Option.any_eq_true _ _).1 hb
  obtain ⟨hfinished, hgeneration', hparallelism⟩ := of_decide_eq_true htest
  obtain ⟨a, haget, hnext, hsize⟩ := hcarried.restarted "a" 2 v hplanA hv hopen
  obtain ⟨b, hbget, hextends⟩ := hcarried.kept "b" w hw (Or.inl hfinished)
  exact ⟨s, request, a, b, hs, hlast, hplanA, hplanB, haget, by rw [hnext, hgeneration], hsize,
    hbget, hextends.generation_eq.trans hgeneration', hextends.parallelism_eq.trans hparallelism⟩

end Scheduler

end AdaptiveBatch
