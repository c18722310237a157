import AdaptiveBatch.Proofs.Rescale.Waiting
import AdaptiveBatch.Proofs.Scheduler.Tracking

/-! # The first start of a job

A new job is given slots and then polled. Nothing happens while it waits, except that a timer is
armed. When it starts, each source gets what the slots allow, and this lasts for as long as nobody
restarts it.

* **`Scheduler.Awaiting`**, **`Scheduler.Launched`** — before and after the start;
* **`Scheduler.Watched`** — what one poll makes of a job that waits;
* **`Scheduler.launched_or_awaiting_run`** — polls lead from the one to the other;
* **`Scheduler.Awaiting.launched_run`** — when the timer has fired, the job has started;
* **`Scheduler.first_start`** — both for a submitted job. -/

namespace AdaptiveBatch

/-! ## First generations -/

namespace ExecutionGraph

variable {g : ExecutionGraph} {vertex other : VertexId} {p k : Nat} {now : Instant}

/-- A vertex has started with so many tasks, and has not been restarted. -/
def RunsFirst (g : ExecutionGraph) (vertex : VertexId) (p : Nat) : Prop :=
  ∃ v, g.get? vertex = some v ∧ v.generation = 1 ∧ v.parallelism = p

instance (g : ExecutionGraph) (vertex : VertexId) (p : Nat) : Decidable (g.RunsFirst vertex p) :=
  decidable_of_iff ((g.get? vertex).map (fun v => (v.generation, v.parallelism)) = some (1, p)) <| by
    unfold RunsFirst
    rw [Option.map_eq_some_iff]
    simp only [Prod.mk.injEq]

/-- Changing a task restarts nothing: what runs first with `p` tasks goes on so. -/
theorem RunsFirst.modifyTask {f : Task → Task} (h : g.RunsFirst vertex p) :
    (g.modifyTask other k f).RunsFirst vertex p := by
  obtain ⟨v, hv, hgeneration, hp⟩ := h
  unfold RunsFirst
  rw [get?_modifyTask, hv]
  split
  · exact ⟨_, rfl, hgeneration, hp⟩
  · exact ⟨v, rfl, hgeneration, hp⟩

/-- Vertices that have not started yet do not matter: when one of them starts, `RunsFirst` stays
true of the others. -/
theorem RunsFirst.regenerate {q : Nat} (h : g.RunsFirst vertex p) (hnew : g.get? other = none) :
    (g.regenerate other q now).RunsFirst vertex p := by
  obtain ⟨v, hv, hrest⟩ := h
  refine ⟨v, ?_, hrest⟩
  rw [get?_regenerate, if_neg]
  · exact hv
  · rintro rfl
    rw [hnew] at hv
    cases hv

/-- Cancellations restart nothing. -/
theorem RunsFirst.cancelEach (h : g.RunsFirst vertex p) (ids : List AttemptId) :
    (g.cancelEach ids now).RunsFirst vertex p :=
  cancelEach_keeps (J := fun g => g.RunsFirst vertex p) h (fun _ _ _ hg => hg.modifyTask) ids

/-- A vertex that has not started runs first with `p` tasks when it is regenerated with them. -/
theorem runsFirst_regenerate (hnew : g.get? vertex = none) :
    (g.regenerate vertex p now).RunsFirst vertex p := by
  refine ⟨_, (get?_regenerate p vertex).trans (if_pos rfl), ?_, rfl⟩
  show g.nextGeneration vertex = 1
  rw [nextGeneration, hnew]
  rfl

end ExecutionGraph

namespace Scheduler

open Scheduling ExecutionGraph

variable {s t : Scheduler} {now since : Instant} {plan : ParallelismPlan}
  {old : Option Stabilization}

/-! ## After the start -/

/-- The job has started with a plan, whose vertices have not been restarted. -/
structure Launched (plan : ParallelismPlan) (s : Scheduler) : Prop where
  /-- The job does not wait. -/
  not_waiting : ∀ since target timer, s.controller.phase ≠ .waiting since target timer
  /-- The vertices run as planned. -/
  runs : ∀ (vertex : VertexId) (p : Nat), plan[vertex]? = some p → s.graph.RunsFirst vertex p

/-- A look at the resources of a job that does not wait starts nothing, so the plan is still
`Launched`. -/
theorem Launched.look (h : s.Launched plan) : ((look now).final s).Launched plan := by
  refine ensures_final.1 ?_
  unfold Scheduler.look
  rw [ensures_bind, ensures_onController]
  refine ⟨?_, fun _ _ => h⟩
  intro action c hc
  cases RescaleController.evaluate_eq_ok hc with
  | idle => exact h
  | scale => exact ⟨fun _ _ _ => RescalePhase.noConfusion, h.runs⟩
  | wait waiting => exact absurd waiting (h.not_waiting _ _ _)
  | start waiting => exact absurd waiting (h.not_waiting _ _ _)
  | startReduced waiting => exact absurd waiting (h.not_waiting _ _ _)
  | insufficient waiting => exact absurd waiting (h.not_waiting _ _ _)

/-- A step of a call starts no vertex over, so the plan is still `Launched`. -/
theorem Step.launched (h : Step now s t) (hs : s.Launched plan) : t.Launched plan := by
  cases h with
  | place => exact ⟨hs.not_waiting, fun vertex p hp => (hs.runs vertex p hp).modifyTask⟩
  | start executing live mem_order new =>
    exact ⟨hs.not_waiting, fun vertex p hp => (hs.runs vertex p hp).regenerate new⟩
  | look => exact hs.look
  | giveUp e => exact ⟨hs.not_waiting, fun vertex p hp => (hs.runs vertex p hp).cancelEach _⟩
  | react | count => exact ⟨hs.not_waiting, hs.runs⟩

/-- Polls change nothing of a plan that is `Launched`. -/
theorem Launched.after_poll (h : s.Launched plan) (hs : s.Sound) (now : Instant) :
    (s.after now .poll).Launched plan := by
  refine after_keeps hs ?_ (fun _ _ hstep => hstep.launched) h
  intro t hopen ht
  cases hopen with
  | nothing => exact ht

/-! ## Before the start -/

/-- Nothing has started. The job waits for what its vertices desire; it has slots enough to start
with a plan, which is what these slots allow. -/
structure Awaiting (since : Instant) (plan : ParallelismPlan) (timer : Option Stabilization)
    (s : Scheduler) : Prop where
  /-- No vertex has started. -/
  graph_eq : s.graph = ∅
  /-- The job has not run. -/
  runningSince_eq : s.runningSince = none
  /-- It has not failed. -/
  failure_eq : s.failure = none
  /-- It has not finished. -/
  finished_eq : s.finished = false
  /-- It waits for what its vertices desire. -/
  phase_eq : s.controller.phase = .waiting since s.controller.desired timer
  /-- The controller is coherent. -/
  coherent : s.controller.Coherent
  /-- There are enough slots. -/
  enough : s.controller.requiredSlots ≤ s.controller.view.slotCount
  /-- The plan is what they allow. -/
  achievable_eq : s.controller.achievable = plan

/-- A job that is `Awaiting` its slots has the status `.waitingResources`. -/
theorem Awaiting.status_eq (h : s.Awaiting since plan old) : s.status = .waitingResources := by
  unfold status
  rw [h.failure_eq, h.finished_eq, h.phase_eq]
  rfl

/-- A job that is `Launched` does not have the status `.waitingResources`. -/
theorem Launched.status_ne (h : s.Launched plan) : s.status ≠ .waitingResources := by
  unfold status
  split
  · exact JobStatus.noConfusion
  · split
    · exact JobStatus.noConfusion
    · cases hphase : s.controller.phase with
      | waiting since target timer => exact absurd hphase (h.not_waiting since target timer)
      | running | evaluating | failed => exact JobStatus.noConfusion

/-- New vertices start one by one, each with its first generation: afterwards every entry of `l`
runs first. -/
theorem ensures_startPlanned_new {l : List (VertexId × Nat)} (hnodup : (l.map (·.1)).Nodup)
    (hnew : ∀ e ∈ l, s.graph.get? e.1 = none) (hpos : ∀ e ∈ l, e.2 ≠ 0) :
    (l.forM (startPlanned now)).Ensures s
      (fun _ t => t.controller = s.controller ∧ ∀ e ∈ l, t.graph.RunsFirst e.1 e.2)
      fun _ => False := by
  -- The vertices that are still to come are new, and the others run as planned.
  refine (Ensures.forM (fun rest t => t.controller = s.controller ∧ (rest.map (·.1)).Nodup ∧
    (∀ e ∈ rest, t.graph.get? e.1 = none ∧ e.2 ≠ 0) ∧
    ∀ e ∈ l, e ∈ rest ∨ t.graph.RunsFirst e.1 e.2) ?_ l s ?_).mono ?_ fun _ => id
  · intro entry rest t ht
    obtain ⟨hcontroller, hrest, hall, hdone⟩ := ht
    obtain ⟨hentry, hrest⟩ := List.nodup_cons.1 hrest
    obtain ⟨hget, hne⟩ := hall entry List.mem_cons_self
    unfold startPlanned
    rw [ensures_bind, ensures_get, if_pos (by rw [needsGeneration, hget])]
    apply ensures_restart (fun hzero => absurd hzero hne)
    intro _
    refine ⟨hcontroller, hrest, ?_, ?_⟩
    · intro e he
      obtain ⟨hget', hne'⟩ := hall e (List.mem_cons_of_mem _ he)
      refine ⟨(get?_regenerate _ _).trans ((if_neg ?_).trans hget'), hne'⟩
      intro heq
      exact hentry (List.mem_map.2 ⟨e, he, heq.symm⟩)
    · intro e he
      rcases hdone e he with hmem | hruns
      · rcases List.mem_cons.1 hmem with rfl | hmem
        · exact Or.inr (runsFirst_regenerate hget)
        · exact Or.inl hmem
      · exact Or.inr (hruns.regenerate hget)
  · exact ⟨rfl, hnodup, fun e he => ⟨hnew e he, hpos e he⟩, fun e he => Or.inl he⟩
  · intro _ t ht
    exact ⟨ht.1, fun e he => (ht.2.2.2 e he).resolve_left List.not_mem_nil⟩

/-! ## Polls -/

/-- The state after a poll: the job has started, or it waits on. -/
inductive Watched (now since : Instant) (plan : ParallelismPlan) (old : Option Stabilization)
    (s : Scheduler) : Scheduler → Prop
  /-- It has started. -/
  | launched {t : Scheduler} (h : t.Launched plan) : Watched now since plan old s t
  /-- It waits on. -/
  | waits {c : RescaleController} (h : s.controller.FirstLook since old now (.ok (.idle, c))) :
      Watched now since plan old s { s with controller := c }
  /-- No timer could be armed. -/
  | abandoned {o : Overflow} (h : s.controller.FirstLook since old now (.error o)) :
      Watched now since plan old s s

/-- A look of a job that is `Awaiting` its slots starts it, lets it wait on or arms no timer. -/
theorem ensures_look_awaiting (h : s.Awaiting since plan old) :
    (look now).Ensures s (fun _ => Watched now since plan old s) (Watched now since plan old s) := by
  have hlook : s.controller.FirstLook since old now (s.controller.evaluate now) :=
    RescaleController.firstLook_evaluate h.coherent h.phase_eq h.enough
  unfold look
  rw [ensures_bind, ensures_onController]
  constructor
  · intro action c hc
    rw [hc] at hlook
    cases hlook with
    | wait armed early => exact .waits (.wait armed early)
    | arm unarmed deadline_eq => exact .waits (.arm unarmed deadline_eq)
    | start reduced =>
      -- The vertices of the plan are new, and each of them gets tasks.
      have hnew (e : VertexId × Nat) : s.graph.get? e.1 = none := by
        rw [h.graph_eq]
        exact get?_empty e.1
      have hpos : ∀ e ∈ s.controller.achievable.toList, e.2 ≠ 0 := fun e he =>
        h.coherent.ne_zero_of_achievable (Std.ExtTreeMap.mem_toList_iff_getElem?_eq_some.1 he)
      show ((s.controller.achievable.toList.forM (startPlanned now)) >>= fun _ => _).Ensures _ _ _
      rw [ensures_bind]
      refine (ensures_startPlanned_new (ParallelismPlan.nodup_vertices _) ?_ hpos).mono ?_
        fun _ => False.elim
      · intro e _
        exact hnew e
      intro _ t ht
      obtain ⟨hcontroller, hruns⟩ := ht
      rw [ensures_bind, ensures_modify, ensures_pure]
      refine .launched ⟨?_, ?_⟩
      · intro since target timer hphase
        rw [hcontroller] at hphase
        cases hphase
      · intro vertex p hp
        rw [← h.achievable_eq] at hp
        exact hruns (vertex, p) (Std.ExtTreeMap.mem_toList_iff_getElem?_eq_some.2 hp)
  · intro o ho
    rw [ho] at hlook
    exact .abandoned hlook

/-- A job that is `Awaiting` its slots is so with another `timer`. -/
theorem Awaiting.withTimer (h : s.Awaiting since plan old) (timer : Option Stabilization) :
    ({ s with controller := { s.controller with
        phase := .waiting since s.controller.desired timer } } : Scheduler).Awaiting
      since plan timer where
  graph_eq := h.graph_eq
  runningSince_eq := h.runningSince_eq
  failure_eq := h.failure_eq
  finished_eq := h.finished_eq
  phase_eq := rfl
  coherent := by
    have hwait : s.controller.Evaluated since .idle
        { s.controller with phase := .waiting since s.controller.desired timer } :=
      .wait h.phase_eq
    exact h.coherent.evaluated hwait
  enough := h.enough
  achievable_eq := h.achievable_eq

/-- Whatever the timer, after a poll the job is `Launched` or waits on. -/
theorem Awaiting.watched (h : s.Awaiting since plan old) (hwatched : Watched now since plan old s t) :
    t.Launched plan ∨ ∃ timer, t.Awaiting since plan timer := by
  cases hwatched with
  | launched ht => exact Or.inl ht
  | abandoned => exact Or.inr ⟨old, h⟩
  | waits hlook =>
    cases hlook with
    | wait => exact Or.inr ⟨_, h.withTimer _⟩
    | arm => exact Or.inr ⟨_, h.withTimer _⟩

/-- The timer stays armed until it fires, and then the job is `Launched`. -/
theorem Awaiting.watched_armed {timer : Stabilization} (h : s.Awaiting since plan (some timer))
    (hslots : s.view.slotCount ≤ timer.slots)
    (hwatched : Watched now since plan (some timer) s t) :
    t.Launched plan ∨ ¬timer.deadline ≤ now ∧ t.Awaiting since plan (some timer) ∧
      t.view.slotCount ≤ timer.slots := by
  have harmed : (some timer).filter (s.controller.view.slotCount ≤ ·.slots) = some timer :=
    Option.filter_some_pos (decide_eq_true hslots)
  cases hwatched with
  | launched ht => exact Or.inl ht
  | abandoned hlook =>
    cases hlook with
    | abandoned unarmed => rw [harmed] at unarmed; cases unarmed
  | waits hlook =>
    cases hlook with
    | wait armed early =>
      obtain rfl := Option.some.inj (harmed.symm.trans armed)
      exact Or.inr ⟨early, h.withTimer _, hslots⟩
    | arm unarmed => rw [harmed] at unarmed; cases unarmed

/-- The first look arms the timer, at `deadline` and the slots of the view, or the job is
`Launched`. -/
theorem Awaiting.watched_unarmed {deadline : Instant} (h : s.Awaiting since plan none)
    (hdeadline : now.add s.controller.settings.stabilizationTimeout = .ok deadline)
    (hwatched : Watched now since plan none s t) :
    t.Launched plan ∨
      t.Awaiting since plan (some { deadline, slots := s.view.slotCount }) ∧
        t.view.slotCount ≤ s.view.slotCount := by
  cases hwatched with
  | launched ht => exact Or.inl ht
  | abandoned hlook =>
    cases hlook with
    | abandoned _ deadline_eq => rw [hdeadline] at deadline_eq; cases deadline_eq
  | waits hlook =>
    cases hlook with
    | wait armed => cases armed
    | arm _ deadline_eq =>
      obtain rfl := Except.ok.inj (hdeadline.symm.trans deadline_eq)
      exact Or.inr ⟨h.withTimer _, Nat.le_refl _⟩

/-! ## Calls -/

/-- While a job waits, nothing is scheduled, and no task waits too long for its slot: both
`schedule` and `checkSlotRequests` return and change nothing. -/
theorem Awaiting.idle (h : s.Awaiting since plan old) :
    schedule now s = .ok () s ∧ checkSlotRequests now s = .ok () s := by
  have hexecuting : s.isExecuting = false := by
    unfold isExecuting
    rw [h.phase_eq]
  constructor
  · rw [eq_ok_iff]
    unfold schedule
    rw [ensures_bind, ensures_get, hexecuting, if_pos (by simp)]
    exact ⟨rfl, rfl⟩
  · rw [eq_ok_iff]
    unfold checkSlotRequests
    rw [ensures_bind, ensures_get, h.runningSince_eq]
    exact ⟨rfl, rfl⟩

/-- Any number of steps leave the plan `Launched`. -/
theorem Steps.launched (h : Steps now s t) (hs : s.Launched plan) : t.Launched plan :=
  h.keeps (fun _ _ hstep => hstep.launched) hs

/-- A look, what is scheduled after it, and one more thing, `finish`, that does nothing to a job
that waits, together lead to a `Watched` state. -/
theorem ensures_look_then (hs : s.Sound) (h : s.Awaiting since plan old) (finish : Scheduling Unit)
    (hstart : ∀ u, u.Launched plan → finish.Ensures u (fun _ => Launched plan) (Launched plan))
    (hwait : ∀ u timer, u.Awaiting since plan timer → finish u = .ok () u) :
    (look now >>= fun request => schedule now >>= fun _ => finish >>= fun _ =>
      pure request).Ensures s (fun _ => Watched now since plan old s)
        (Watched now since plan old s) := by
  have hlook : (look now).Ensures s (fun _ => Watched now since plan old s)
      (Watched now since plan old s) := ensures_look_awaiting h
  rw [ensures_bind, ensures_iff]
  constructor
  · intro request? t ht
    have hwatched : Watched now since plan old s t := (ensures_of_eq_ok ht).1 hlook
    have hsound : t.Sound := by
      rw [← final_of_eq_ok ht]
      exact hs.look
    rw [ensures_bind]
    rcases h.watched hwatched with hlaunched | ⟨timer, hawaiting⟩
    · refine (ensures_schedule hsound).mono ?_ fun u hu => .launched (hu.launched hlaunched)
      intro _ u hu
      rw [ensures_bind]
      exact (hstart u (hu.launched hlaunched)).mono (fun _ v hv => .launched hv) fun v hv =>
        .launched hv
    · rw [ensures_of_eq_ok hawaiting.idle.1, ensures_bind,
        ensures_of_eq_ok (hwait t timer hawaiting)]
      exact hwatched
  · intro i t ht
    exact (ensures_of_eq_error ht).1 hlook

/-- A poll of a job that is `Awaiting` its slots leads to a `Watched` state. -/
theorem Awaiting.watched_poll (h : s.Awaiting since plan old) (hs : s.Sound) (now : Instant) :
    Watched now since plan old s (s.after now .poll) := by
  refine ensures_final.1 ?_
  show (poll now).Ensures s _ _
  unfold poll
  rw [ensures_bind, ensures_get, h.status_eq]
  refine ensures_look_then hs h (checkSlotRequests now) ?_ fun u timer hu => hu.idle.2
  intro u hu
  exact ensures_checkSlotRequests hu fun e => (Step.giveUp e).launched hu

/-- When the slots that a job waits for have come with `view`, it is `Watched` from then on. -/
theorem Awaiting.watched_resources {view : ResourceView} (hs : s.Sound)
    (h : (s.viewing view).Awaiting since plan old) (now : Instant) :
    Watched now since plan old (s.viewing view) (s.after now (.event (.resources view))) := by
  have hsound : (s.viewing view).Sound := hs.of_eq rfl rfl
  have hstatus : s.status = .waitingResources := h.status_eq
  refine ensures_final.1 ?_
  show (resourcesChanged view now).Ensures s _ _
  unfold resourcesChanged
  rw [ensures_bind, ensures_get, hstatus]
  exact ensures_look_then hsound h (pure ()) (fun u hu => hu) fun u timer _ => rfl

/-! ## Runs -/

/-- Polls and nothing else. -/
def polling (polls : List Instant) : History := polls.map fun now => (now, .poll)

/-- However often the job is polled, the plan is still `Launched`. -/
theorem Launched.run (h : s.Launched plan) (hs : s.Sound) (polls : List Instant) :
    (s.run (polling polls)).Launched plan := by
  induction polls generalizing s with
  | nil => exact h
  | cons now rest ih => exact ih (h.after_poll hs now) (hs.after now .poll)

/-- A job that waits waits on, however often it is polled, until it is `Launched`. -/
theorem launched_or_awaiting_run (hs : s.Sound)
    (h : s.Launched plan ∨ ∃ timer, s.Awaiting since plan timer) (polls : List Instant) :
    (s.run (polling polls)).Launched plan ∨
      ∃ timer, (s.run (polling polls)).Awaiting since plan timer := by
  induction polls generalizing s with
  | nil => exact h
  | cons now rest ih =>
    refine ih (hs.after now .poll) ?_
    rcases h with hlaunched | ⟨timer, hawaiting⟩
    · exact Or.inl (hlaunched.after_poll hs now)
    · exact hawaiting.watched (hawaiting.watched_poll hs now)

/-- When the timer has fired, that is, when there was a poll after its `deadline`, the job is
`Launched`. -/
theorem Awaiting.launched_run {timer : Stabilization} (hs : s.Sound)
    (h : s.Awaiting since plan (some timer)) (hslots : s.view.slotCount ≤ timer.slots)
    {polls : List Instant} (hmem : now ∈ polls) (hdue : timer.deadline ≤ now) :
    (s.run (polling polls)).Launched plan := by
  induction polls generalizing s with
  | nil => exact absurd hmem List.not_mem_nil
  | cons first rest ih =>
    have hsound := hs.after first .poll
    rcases h.watched_armed hslots (h.watched_poll hs first) with hlaunched | ⟨hearly, hnext, hle⟩
    · exact hlaunched.run hsound rest
    · rcases List.mem_cons.1 hmem with rfl | hmem
      · exact absurd hdue hearly
      · exact ih hsound hnext hle hmem

/-- A new job to which enough slots are offered is `Awaiting` what they allow, with no timer yet. -/
theorem Awaiting.of_submit {config : Config} {job : JobGraph} {backend : Backend}
    {view : ResourceView} (hsubmit : submit config job backend since = .ok s)
    (henough : s.controller.requiredSlots ≤ (s.viewing view).view.slotCount) :
    (s.viewing view).Awaiting since (s.viewing view).controller.achievable none := by
  have hcoherent := (Tracked.of_submit hsubmit).coherent.withView (s.viewing view).view
  obtain ⟨order, -, -, rfl⟩ := submit_eq_ok hsubmit
  exact ⟨rfl, rfl, rfl, rfl, rfl, hcoherent, henough, rfl⟩

/-- A new job to which enough slots are offered, and which is polled then, waits until it is
`Launched` with what these slots allow. It is `Launched` when it was polled after the stabilization
time. -/
theorem first_start {config : Config} {job : JobGraph} {backend : Backend} {view : ResourceView}
    (hsubmit : submit config job backend since = .ok s)
    (henough : s.controller.requiredSlots ≤ (s.viewing view).view.slotCount) (first : Instant)
    (polls : List Instant) :
    ((s.run ((first, .event (.resources view)) :: polling polls)).status = .waitingResources ∨
      (s.run ((first, .event (.resources view)) :: polling polls)).Launched
        (s.viewing view).controller.achievable) ∧
      ∀ deadline, first.add s.controller.settings.stabilizationTimeout = .ok deadline →
        ∀ now ∈ polls, deadline ≤ now →
          (s.run ((first, .event (.resources view)) :: polling polls)).Launched
            (s.viewing view).controller.achievable := by
  have hsound := Sound.of_submit hsubmit
  have hawaiting := Awaiting.of_submit hsubmit henough
  have hwatched := hawaiting.watched_resources hsound first
  have hnext := hsound.after first (.event (.resources view))
  constructor
  · rcases launched_or_awaiting_run hnext (hawaiting.watched hwatched) polls with
      hlaunched | ⟨timer, hwaits⟩
    · exact Or.inr hlaunched
    · exact Or.inl hwaits.status_eq
  · intro deadline hdeadline now hmem hdue
    rcases hawaiting.watched_unarmed hdeadline hwatched with hlaunched | ⟨harmed, hle⟩
    · exact hlaunched.run hnext polls
    · exact harmed.launched_run hnext hle hmem hdue

end Scheduler

end AdaptiveBatch
