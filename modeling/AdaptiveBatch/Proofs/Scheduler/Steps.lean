import AdaptiveBatch.Proofs.Rescale.Evaluation
import AdaptiveBatch.Proofs.Scheduler.Deployments
import AdaptiveBatch.Proofs.Straggler.Launches
import AdaptiveBatch.Scheduler.Resources
import Mathlib.Logic.Relation

/-! # Steps of a call

Whatever a call does after its opening, it does in steps: it places an attempt on a node that has
room, starts a vertex that is ready, looks at the resources or for slow attempts, counts a launch,
or gives up. An invariant of the scheduler is kept by each of these.

* **`Scheduler.Step`**, **`Scheduler.Steps`** — one step, and any number of them;
* **`Scheduler.SteadySteps`** — steps that leave the blocked nodes alone;
* **`Scheduler.ensures_look_parts`**, **`Scheduler.look_keeps_planned`** — what the parts of a look
  keep is kept by the look;
* **`Scheduler.Sound`** — the invariant on which the steps themselves rest. -/

namespace AdaptiveBatch.Scheduler

open Scheduling ExecutionGraph

variable {s t : Scheduler} {now : Instant}

/-- A look for slow attempts plans `launches`, goes on with `speculation`, and blocks the nodes of
`registry`: what `Speculation.react` makes of `Config.slowAttempts`. -/
def Reacts (s : Scheduler) (now : Instant) (launches : List Launch) (speculation : Speculation)
    (registry : SlowNodes) : Prop :=
  s.speculation.react (s.config.slowAttempts s.graph now)
    { graph := s.graph, view := s.view, slow := s.slow, now } = .ok (launches, speculation, registry)

/-- A look for slow attempts leaves `s.speculation.settings` as they are. -/
theorem Reacts.settings_eq {launches : List Launch} {speculation : Speculation}
    {registry : SlowNodes} (h : s.Reacts now launches speculation registry) :
    speculation.settings = s.speculation.settings :=
  (Speculation.react_eq_ok h).2.2

/-- The state with what a look for slow attempts leaves behind. -/
def reacted (s : Scheduler) (speculation : Speculation) (registry : SlowNodes) : Scheduler :=
  { s with speculation, slow := registry }

/-- One step of a call. -/
inductive Step (now : Instant) : Scheduler → Scheduler → Prop
  /-- An attempt is placed: the first active one of a task that is not finished, or one more of a
  slow task. -/
  | place {s : Scheduler} {v : VertexExecution} {task : Task} {vertex : VertexId} {subtask : Nat}
      {node : NodeId} {speculative : Bool} (executing : s.isExecuting = true)
      (live : s.status.isTerminal = false) (vertex_eq : s.graph.get? vertex = some v)
      (task_eq : v.tasks[subtask]? = some task) (winner_eq : task.winner = none)
      (few : task.activeCount <
        if speculative then s.speculation.settings.maxConcurrentExecutions else 1)
      (room : s.HasRoom vertex node now) :
      Step now s (s.placed (v.nextId vertex subtask task) node speculative now)
  /-- A vertex starts that is ready. -/
  | start {s : Scheduler} {v : JobVertex} {inputs : List InputStatistics} {id : VertexId}
      (executing : s.isExecuting = true) (live : s.status.isTerminal = false)
      (mem_order : id ∈ s.order) (new : s.graph.get? id = none) (ready : s.isReady id = true)
      (vertex_eq : s.job.get? id = some v) (inputs_eq : s.inputStatistics id = .ok inputs)
      (pos : s.sizing.decideWithin v inputs (some s.view) ≠ 0) :
      Step now s (s.started v inputs id now)
  /-- A look at the resources. -/
  | look {s : Scheduler} : Step now s ((look now).final s)
  /-- The job gives up. -/
  | giveUp {s : Scheduler} (e : SchedulerError) : Step now s (s.fail e now)
  /-- Slow attempts are looked for: their nodes are blocked, and launches for their tasks are
  planned. -/
  | react {s : Scheduler} {launches : List Launch} {speculation : Speculation}
      {registry : SlowNodes} (executing : s.isExecuting = true)
      (live : s.status.isTerminal = false) (reacts : s.Reacts now launches speculation registry) :
      Step now s (s.reacted speculation registry)
  /-- A launch is counted. -/
  | count {s : Scheduler} :
      Step now s { s with speculativeLaunches := s.speculativeLaunches + 1 }

/-- Any number of steps. -/
abbrev Steps (now : Instant) : Scheduler → Scheduler → Prop := Relation.ReflTransGen (Step now)

/-- What every step keeps is kept by any number of them: `J` is an invariant of `Steps`. -/
theorem Steps.keeps {J : Scheduler → Prop} (step : ∀ s t, Step now s t → J s → J t)
    (h : Steps now s t) (hs : J s) : J t := by
  induction h with
  | refl => exact hs
  | tail _ hstep ih => exact step _ _ hstep ih

/-! ## Looks at the resources -/

/-- A look evaluates the controller, and then restarts planned vertices, those that need it, or
gives up. What the evaluation and the restarts keep as `J` holds when the look returns, and `E` when
it does not. -/
theorem ensures_look_parts {J E : Scheduler → Prop} (herror : E s) (hJE : ∀ t, J t → E t)
    (hcontroller : ∀ c action, s.controller.Evaluated now action c →
      (∀ available required, action ≠ .insufficient available required) →
        J { s with controller := c })
    (hrestart : ∀ plan reduced c, s.controller.Evaluated now (.start plan reduced) c →
      ∀ (t : Scheduler) (vertex : VertexId) (parallelism : Nat), plan[vertex]? = some parallelism →
        parallelism ≠ 0 → t.needsGeneration vertex parallelism = true → J t →
          J (t.restarted vertex parallelism now))
    (hrunning : ∀ t since, J t → J { t with runningSince := since })
    (hgiveUp : ∀ available required c,
      s.controller.Evaluated now (.insufficient available required) c →
        E (({ s with controller := c } : Scheduler).fail (.insufficient available required) now)) :
    (look now).Ensures s (fun _ => J) E := by
  unfold look
  rw [ensures_bind, ensures_onController]
  refine ⟨?_, fun _ _ => herror⟩
  intro action c hc
  have heval := RescaleController.evaluate_eq_ok hc
  cases action with
  | idle => exact hcontroller c _ heval fun _ _ => RescaleAction.noConfusion
  | scale request => exact hcontroller c _ heval fun _ _ => RescaleAction.noConfusion
  | insufficient available required => exact hgiveUp available required c heval
  -- The vertices of the plan are restarted one by one, then the start is recorded.
  | start plan reduced =>
    have hafter := hcontroller c _ heval fun _ _ => RescaleAction.noConfusion
    show ((plan.toList.forM (startPlanned now)) >>= fun _ => _).Ensures _ _ _
    rw [ensures_bind]
    refine (Ensures.forM (fun rest t => J t ∧ ∀ planned ∈ rest, plan[planned.1]? = some planned.2)
      ?_ _ _ ⟨hafter, ?_⟩).mono ?_ fun _ ht => ht
    · rintro ⟨vertex, parallelism⟩ rest t ⟨ht, hrest⟩
      obtain ⟨hplan, hlater⟩ := List.forall_mem_cons.1 hrest
      unfold startPlanned
      rw [ensures_bind, ensures_get]
      split
      · next hneeds =>
        exact ensures_restart (fun _ => hJE t ht) fun hpos =>
          ⟨hrestart plan reduced c heval t vertex parallelism hplan hpos hneeds ht, hlater⟩
      · exact ⟨ht, hlater⟩
    · intro planned hplanned
      exact Std.ExtTreeMap.mem_toList_iff_getElem?_eq_some.1 hplanned
    · intro _ t ht
      rw [ensures_bind, ensures_modify, ensures_pure]
      exact hrunning t _ ht.1

/-- What all parts of a look keep is kept by it, however it ends: `J` holds of
`(look now).final s`. -/
theorem look_keeps_planned {J : Scheduler → Prop} (hs : J s)
    (hcontroller : ∀ c action, s.controller.Evaluated now action c → J { s with controller := c })
    (hrestart : ∀ plan reduced c, s.controller.Evaluated now (.start plan reduced) c →
      ∀ (t : Scheduler) (vertex : VertexId) (parallelism : Nat), plan[vertex]? = some parallelism →
        parallelism ≠ 0 → t.needsGeneration vertex parallelism = true → J t →
          J (t.restarted vertex parallelism now))
    (hrunning : ∀ t since, J t → J { t with runningSince := since })
    (hfail : ∀ t e, J t → J (t.fail e now)) : J ((look now).final s) :=
  ensures_final.1 <| ensures_look_parts hs (fun _ ht => ht)
    (fun c action heval _ => hcontroller c action heval) hrestart hrunning
    fun _ _ c heval => hfail _ _ (hcontroller c _ heval)

/-- What every restart keeps, whatever its plan says, is kept by a look, however it ends. -/
theorem look_keeps {J : Scheduler → Prop} (hs : J s)
    (hcontroller : ∀ c action, s.controller.Evaluated now action c → J { s with controller := c })
    (hrestart : ∀ t vertex parallelism, parallelism ≠ 0 → J t →
      J (t.restarted vertex parallelism now))
    (hrunning : ∀ t since, J t → J { t with runningSince := since })
    (hfail : ∀ t e, J t → J (t.fail e now)) : J ((look now).final s) :=
  look_keeps_planned hs hcontroller
    (fun _ _ _ _ t vertex parallelism _ hpos _ ht => hrestart t vertex parallelism hpos ht)
    hrunning hfail

/-- A look that returns a `request` asks for a restart, and does nothing else. -/
theorem look_eq_ok_some {request : ScaleRequest} (h : look now s = .ok (some request) t) :
    ∃ c, s.controller.Evaluated now (.scale request) c ∧ t = { s with controller := c } := by
  have hlook : (look now).Ensures s (fun request? t => ∀ request, request? = some request →
      ∃ c, s.controller.Evaluated now (.scale request) c ∧ t = { s with controller := c })
      fun _ => True := by
    unfold look
    rw [ensures_bind, ensures_onController]
    refine ⟨?_, fun _ _ => trivial⟩
    intro action c hc
    have heval := RescaleController.evaluate_eq_ok hc
    cases action with
    | idle =>
      intro _ heq
      cases heq
    | scale request =>
      intro _ heq
      cases heq
      exact ⟨c, heval, rfl⟩
    | insufficient available required => exact trivial
    | start plan reduced =>
      -- A look that starts the job answers nothing, whatever becomes of its vertices.
      show ((plan.toList.forM (startPlanned now)) >>= fun _ => _).Ensures _ _ _
      rw [ensures_bind]
      refine ensures_self.mono ?_ fun _ _ => trivial
      intro _ _ _ _ heq
      cases heq
  exact (ensures_of_eq_ok h).1 hlook request rfl

/-- The controller after a look, however it ends, is one that `Evaluated` leads to. -/
theorem exists_evaluated_look (s : Scheduler) (now : Instant) :
    ∃ action, s.controller.Evaluated now action ((look now).final s).controller :=
  look_keeps (J := fun t => ∃ action, s.controller.Evaluated now action t.controller)
    ⟨.idle, .idle⟩ (fun _ action heval => ⟨action, heval⟩) (fun _ _ _ _ ht => ht)
    (fun _ _ ht => ht) fun _ _ ht => ht

/-! ## The invariant behind the steps -/

/-- The attempts can be told apart, no won task holds a slot, and no vertex occurs twice in the
order. -/
structure Sound (s : Scheduler) : Prop where
  /-- The place of an attempt can be read off its identity. -/
  wellFormed : s.graph.WellFormed
  /-- No won task holds a slot. -/
  settled : s.graph.Settled
  /-- No vertex occurs twice in the order. -/
  nodup_order : s.order.Nodup

/-- Only the `graph` and the `order` matter to the soundness of a state. -/
theorem Sound.of_eq (h : s.Sound) (hgraph : t.graph = s.graph) (horder : t.order = s.order) :
    t.Sound := by
  obtain ⟨hwf, hsettled, hnodup⟩ := h
  exact ⟨hgraph ▸ hwf, hgraph ▸ hsettled, horder ▸ hnodup⟩

/-- One more attempt, that of `nextId`, leaves a sound state, if its task has no `winner`. -/
theorem Sound.placed {v : VertexExecution} {task : Task} {vertex : VertexId} {subtask : Nat}
    {node : NodeId} {speculative : Bool} (h : s.Sound) (hv : s.graph.get? vertex = some v)
    (ht : v.tasks[subtask]? = some task) (hw : task.winner = none) :
    (s.placed (v.nextId vertex subtask task) node speculative now).Sound := by
  have hnext := isNext_nextId hv ht
  have hopen : ∀ t ∈ s.graph.taskOf? (v.nextId vertex subtask task), t.winner = none := by
    intro t ht'
    rw [taskOf?_eq_some_iff.2 ⟨v, hv, rfl, ht⟩] at ht'
    cases ht'
    exact hw
  -- Whatever the backend answers, the new attempt has not finished.
  refine ⟨?_, ?_, h.nodup_order⟩
  · refine h.wellFormed.push ?_ ?_
    · split <;> exact hnext
    · split <;> exact AttemptStatus.noConfusion
  · refine h.settled.push ?_ ?_
    · split <;> exact hopen
    · split <;> exact hnext

/-- Starting a vertex over, with `parallelism ≠ 0`, leaves a sound state. -/
theorem Sound.restarted (h : s.Sound) {vertex : VertexId} {parallelism : Nat}
    (hpos : parallelism ≠ 0) : (s.restarted vertex parallelism now).Sound :=
  ⟨h.wellFormed.regenerate hpos, h.settled.regenerate, h.nodup_order⟩

/-- Ending the job with a failure leaves a sound state. -/
theorem Sound.fail (h : s.Sound) (e : SchedulerError) : (s.fail e now).Sound :=
  ⟨h.wellFormed.cancelEach _, h.settled.cancelEach _, h.nodup_order⟩

/-- A look leaves a sound state. -/
theorem Sound.look (h : s.Sound) : ((look now).final s).Sound :=
  look_keeps h (fun _ _ _ => h.of_eq rfl rfl) (fun _ _ _ hpos ht => ht.restarted hpos)
    (fun _ _ ht => ht.of_eq rfl rfl) fun _ e ht => ht.fail e

/-- A step of a call leaves a sound state. -/
theorem Step.sound (h : Step now s t) (hs : s.Sound) : t.Sound := by
  cases h with
  | place executing live vertex_eq task_eq winner_eq few room =>
    exact hs.placed vertex_eq task_eq winner_eq
  | start executing live mem_order new ready vertex_eq inputs_eq pos =>
    -- The first generation has tasks, and none of them is won.
    exact ⟨hs.wellFormed.regenerate pos, hs.settled.regenerate, hs.nodup_order⟩
  | look => exact hs.look
  | giveUp e => exact hs.fail e
  | react | count => exact hs.of_eq rfl rfl

/-- Any number of steps leave a sound state. -/
theorem Steps.sound (h : Steps now s t) (hs : s.Sound) : t.Sound :=
  h.keeps (fun _ _ hstep => hstep.sound) hs

/-! ## What steps leave alone -/

/-- The same settings and the same job. -/
def SameJob (s t : Scheduler) : Prop := t.config = s.config ∧ t.job = s.job ∧ t.order = s.order

/-- A state is one of the same job as itself. -/
theorem SameJob.refl (s : Scheduler) : s.SameJob s := ⟨rfl, rfl, rfl⟩

/-- Being a state of the `SameJob` is transitive. -/
theorem SameJob.trans {u : Scheduler} (h : s.SameJob t) (h' : t.SameJob u) : s.SameJob u :=
  ⟨h'.1.trans h.1, h'.2.1.trans h.2.1, h'.2.2.trans h.2.2⟩

/-- A look changes neither the settings nor the job. -/
theorem sameJob_look : s.SameJob ((Scheduler.look now).final s) :=
  look_keeps (J := s.SameJob) (SameJob.refl s) (fun _ _ _ => SameJob.refl s)
    (fun _ _ _ _ ht => ht) (fun _ _ ht => ht) fun _ _ ht => ht

/-- A step of a call changes neither the settings nor the job. -/
theorem Step.sameJob (h : Step now s t) : s.SameJob t := by
  cases h with
  | look => exact sameJob_look
  | place | start | giveUp | react | count => exact ⟨rfl, rfl, rfl⟩

/-- A look does not change `s.view`. -/
theorem view_look : ((Scheduler.look now).final s).view = s.view :=
  look_keeps (J := fun t => t.view = s.view) rfl (fun _ _ hc => hc.frame.1)
    (fun _ _ _ _ ht => ht) (fun _ _ ht => ht) fun _ _ ht => ht

/-- No step of a call changes `s.view`. -/
theorem Step.view_eq (h : Step now s t) : t.view = s.view := by
  cases h with
  | look => exact view_look
  | place | start | giveUp | react | count => rfl

/-- No number of steps changes `s.view`. -/
theorem Steps.view_eq (h : Steps now s t) : t.view = s.view :=
  h.keeps (J := fun t => t.view = s.view) (fun _ _ hstep ht => hstep.view_eq.trans ht) rfl

/-! ## Steps that leave the blocked nodes alone

Only `Step.react` changes `s.slow`, so every other step is steady. -/

/-- A step of a call that leaves `s.slow` as it is. -/
def SteadyStep (now : Instant) (s t : Scheduler) : Prop := Step now s t ∧ t.slow = s.slow

/-- Any number of steady steps. -/
abbrev SteadySteps (now : Instant) : Scheduler → Scheduler → Prop :=
  Relation.ReflTransGen (SteadyStep now)

/-- Steady steps are steps of a call. -/
theorem SteadySteps.steps (h : SteadySteps now s t) : Steps now s t :=
  Relation.ReflTransGen.mono (fun _ _ hstep => hstep.1) _ _ h

/-- Giving up by `s.fail` is steady: it leaves `s.slow` as it is. -/
theorem steadyStep_fail (e : SchedulerError) : SteadyStep now s (s.fail e now) := ⟨.giveUp e, rfl⟩

end AdaptiveBatch.Scheduler
