import AdaptiveBatch.Proofs.Scheduler.Dependencies

/-! # Jobs that have ended

A job ends when its last vertex finishes, or when it gives up. In both cases no attempt holds a slot
any more: a finished vertex has won tasks only, and these hold no slots; a job that gives up stops
every attempt that holds one. So no report about an attempt is awaited any more, and all other calls
look first whether the job has ended. Nothing that is told to the scheduler afterwards changes
anything.

* **`Scheduler.isTerminal_status_iff`** — when a job has ended;
* **`Scheduler.WithinJob`** — only vertices of the job start, kept by every opening and every step;
* **`Scheduler.Clean`** — once the job has ended, no attempt holds a slot, kept in the same way;
* **`Scheduler.after_of_ended`** — a call on a job that has ended;
* **`Scheduler.ended_for_good`** — the same for every history. -/

namespace AdaptiveBatch

namespace Scheduler

open Scheduling ExecutionGraph

variable {s t : Scheduler} {now : Instant} {config : Config} {job : JobGraph} {backend : Backend}
  {start : Instant}

/-! ## The status -/

/-- A job has ended when it has a `failure` or is `finished`, or when its slots do not suffice, so
that its controller has `.failed`. -/
theorem isTerminal_status_iff : s.status.isTerminal = true ↔ s.failure.isSome = true ∨
    s.finished = true ∨ ∃ available required, s.controller.phase = .failed available required := by
  unfold status
  split
  · next h => simp [h, JobStatus.isTerminal]
  · next h =>
    split
    · next h' => simp [h', JobStatus.isTerminal]
    · next h' => cases hphase : s.controller.phase <;> simp [h, h', JobStatus.isTerminal]

/-- A job that runs has ended when it has a `failure` or is `finished`. -/
theorem isTerminal_status_of_executing (h : s.isExecuting = true) :
    s.status.isTerminal = true ↔ s.failure.isSome = true ∨ s.finished = true := by
  rw [isTerminal_status_iff]
  constructor
  · rintro (hfailure | hfinished | ⟨available, required, hphase⟩)
    · exact Or.inl hfailure
    · exact Or.inr hfinished
    · rw [isExecuting, hphase] at h
      cases h
  · exact Or.imp_right Or.inl

/-- The job `s` has ended whenever another one, `t`, with the same marks has, whose phase is the
failed one if its own is. -/
theorem isTerminal_of (h : t.status.isTerminal = true) (hfailure : t.failure = s.failure)
    (hfinished : t.finished = s.finished)
    (hphase : ∀ available required, t.controller.phase = .failed available required →
      s.controller.phase = .failed available required) : s.status.isTerminal = true := by
  rw [isTerminal_status_iff, hfailure, hfinished] at h
  refine isTerminal_status_iff.2 (h.imp_right (Or.imp_right ?_))
  rintro ⟨available, required, hfailed⟩
  exact ⟨available, required, hphase _ _ hfailed⟩

/-! ## The vertices that start -/

/-- Only vertices of the job have requirements, and only these start. -/
structure WithinJob (s : Scheduler) : Prop where
  /-- The controller and the execution speak about the same vertices. -/
  tracked : s.Tracked
  /-- Only vertices of the job have requirements. -/
  required : ∀ vertex : VertexId, (s.controller.requirements[vertex]?).isSome = true →
    (s.job.get? vertex).isSome = true
  /-- Only vertices of the job start. -/
  started : ∀ vertex : VertexId, (s.graph.get? vertex).isSome = true →
    (s.job.get? vertex).isSome = true

/-- New requirements and new starts have to be looked at only, to see that they are about vertices
of the job. -/
theorem WithinJob.of_sameJob (h : s.WithinJob) (ht : t.Tracked) (hjob : s.SameJob t)
    (hrequired : ∀ vertex : VertexId, (t.controller.requirements[vertex]?).isSome = true →
      (s.controller.requirements[vertex]?).isSome = true ∨ (s.job.get? vertex).isSome = true)
    (hstarted : ∀ vertex : VertexId, (t.graph.get? vertex).isSome = true →
      (s.graph.get? vertex).isSome = true ∨ (s.job.get? vertex).isSome = true) : t.WithinJob where
  tracked := ht
  required vertex hsome := by
    rw [hjob.2.1]
    exact (hrequired vertex hsome).elim (h.required vertex) id
  started vertex hsome := by
    rw [hjob.2.1]
    exact (hstarted vertex hsome).elim (h.started vertex) id

/-- The vertices of a plan have requirements, so those that a look starts are vertices of the
job. -/
theorem WithinJob.look (h : s.WithinJob) : ((Scheduler.look now).final s).WithinJob := by
  obtain ⟨action, heval, hjob, hrealized⟩ := ensures_final.1 (ensures_look h.tracked now)
  refine h.of_sameJob (Step.look.tracked h.tracked) hjob ?_ ?_
  · intro vertex hsome
    rw [heval.frame.2.2] at hsome
    exact Or.inl hsome
  · intro vertex hsome
    rw [hrealized.isSome_eq] at hsome
    rcases Bool.or_eq_true_iff.1 hsome with hplanned | hold
    · obtain ⟨p, hp⟩ := Option.isSome_iff_exists.1 hplanned
      obtain ⟨r, hr, -⟩ := h.tracked.coherent.exists_requirement heval hp
      exact Or.inr (h.required vertex (by rw [hr]; rfl))
    · exact Or.inl hold

/-- A step of a call starts only vertices of the job. -/
theorem Step.withinJob (h : Step now s t) (hs : s.WithinJob) : t.WithinJob := by
  have hkeeps := hs.of_sameJob (h.tracked hs.tracked) h.sameJob
  cases h with
  | place =>
    exact hkeeps (fun _ hsome => Or.inl hsome)
      fun vertex hsome => Or.inl ((sameSizes_push _ vertex).1.symm.trans hsome)
  | @start v inputs id executing live mem_order new ready vertex_eq inputs_eq pos =>
    have hid : (s.job.get? id).isSome = true := by rw [vertex_eq]; rfl
    apply hkeeps
    · intro vertex hsome
      change ((s.controller.requirements.insert id _)[vertex]?).isSome = true at hsome
      rw [ParallelismPlan.getElem?_insert] at hsome
      split at hsome
      · next heq => exact Or.inr (heq ▸ hid)
      · exact Or.inl hsome
    · intro vertex hsome
      rw [show ((s.started v inputs id now).graph.get? vertex).isSome = _ from
        isSome_get?_regenerate _ vertex] at hsome
      split at hsome
      · next heq => exact Or.inr (heq ▸ hid)
      · exact Or.inl hsome
  | look => exact hs.look
  | giveUp =>
    exact hkeeps (fun _ hsome => Or.inl hsome)
      fun vertex hsome => Or.inl ((sameSizes_cancelEach _ vertex).1.symm.trans hsome)
  | react | count => exact hkeeps (fun _ hsome => Or.inl hsome) fun _ hsome => Or.inl hsome

/-- What comes before the look of a call starts no vertex. -/
theorem Opening.withinJob {c : Call} (h : Opening now s c t) (hs : s.WithinJob) : t.WithinJob :=
  hs.of_sameJob (h.tracked hs.tracked) h.sameJob
    (fun vertex hsome => Or.inl ((h.starts_nothing vertex).2 hsome))
    fun vertex hsome => Or.inl ((h.starts_nothing vertex).1.symm.trans hsome)

/-- In a new job only its sources have requirements, and nothing has started. -/
theorem WithinJob.of_submit (h : submit config job backend start = .ok s) : s.WithinJob := by
  have htracked := Tracked.of_submit h
  have hempty := graph_of_submit h
  refine ⟨htracked, ?_, ?_⟩
  · intro vertex hsome
    obtain ⟨r, hr⟩ := Option.isSome_iff_exists.1 hsome
    obtain ⟨order, -, -, rfl⟩ := submit_eq_ok h
    obtain ⟨v, hv, -, rfl, -⟩ := requirement_of_mem_sourceRequirements hr
    exact List.find?_isSome.2 ⟨v, hv, by simp⟩
  · intro vertex hsome
    rw [hempty, get?_empty] at hsome
    cases hsome

/-- When every vertex of the job is finished, no attempt `id` holds a slot. -/
theorem WithinJob.not_isActive_of_allFinished (h : s.WithinJob) (hs : s.Sound)
    (hall : s.allFinished = true) (id : AttemptId) : ¬s.graph.IsActive id := by
  intro hactive
  obtain ⟨w, task, hw, -, htask, hattempt⟩ := hactive.exists_task
  obtain ⟨v, hv⟩ := Option.isSome_iff_exists.1 (h.started id.vertex (by rw [hw]; rfl))
  have hid : v.id = id.vertex := by simpa using List.find?_some hv
  have hfinished := List.all_eq_true.1 hall v (List.mem_of_find?_eq_some hv)
  rw [hid, ExecutionGraph.isFinished, hw] at hfinished
  -- The task of the attempt is won, so it holds no slot.
  have hwon := VertexExecution.isFinished_iff.1 hfinished task (List.mem_of_getElem? htask)
  obtain ⟨a, ha, hholds⟩ := hattempt
  have hmem := Task.mem_activeAttempts.2 ⟨List.mem_of_getElem? ha, hholds⟩
  rw [hs.settled _ _ _ _ hw htask hwon] at hmem
  exact List.not_mem_nil hmem

/-! ## No slot is held -/

/-- Once the job has ended, no attempt holds a slot. -/
def Clean (s : Scheduler) : Prop := s.status.isTerminal = true → ∀ id, ¬s.graph.IsActive id

/-- A job that gives up by `s.fail` stops every attempt. -/
theorem Clean.fail (hs : s.Sound) (e : SchedulerError) : (s.fail e now).Clean := by
  intro _ id hactive
  obtain ⟨hbefore, hnot⟩ := (isActive_cancelEach hs.settled _).1 hactive
  exact hnot ((mem_activeIds hs.wellFormed).2 hbefore)

/-- New generations have no attempts, so starting a vertex over takes no slot after the end. -/
theorem Clean.restarted (h : s.Clean) (vertex : VertexId) (parallelism : Nat) :
    (s.restarted vertex parallelism now).Clean :=
  fun hended id hactive => h hended id ((isActive_regenerate _).1 hactive).1

/-- A job in which an attempt is awaited, and so holds a slot, has not ended. -/
theorem Clean.not_terminal (h : s.Clean) {id : AttemptId} (hid : s.graph.Awaits id) :
    s.status.isTerminal = false :=
  Bool.eq_false_iff.2 fun hended => h hended id hid.isActive

/-- A look leaves no attempt behind if it ends the job. -/
theorem Clean.look (h : s.Clean) (hs : s.Sound) : ((Scheduler.look now).final s).Clean := by
  refine ensures_final.1 (ensures_look_parts h (fun _ ht => ht) ?_ ?_ ?_ ?_)
  · intro c action heval hsuffice hended
    exact h (isTerminal_of hended rfl rfl fun _ _ => heval.phase_of_failed hsuffice)
  · intro _ _ _ _ t vertex parallelism _ _ _ ht
    exact ht.restarted vertex parallelism
  · intro t _ ht
    exact ht
  · -- The phase fails together with the job.
    intro available required c _
    exact Clean.fail (hs.of_eq rfl rfl) (.insufficient available required)

/-- A step of a call leaves no attempt behind if it ends the job. -/
theorem Step.clean (h : Step now s t) (hs : s.Sound) (hclean : s.Clean) : t.Clean := by
  cases h with
  | place executing live | start executing live =>
    intro hended
    exact absurd (live.symm.trans hended) Bool.false_ne_true
  | look => exact hclean.look hs
  | giveUp e => exact Clean.fail hs e
  | react | count => exact hclean

/-- A win changes the graph to `s.graph.win`, and no `failure` comes of it. -/
theorem graph_won {id : AttemptId} {inputBytes outputBytes : Option Nat} :
    (s.won id inputBytes outputBytes now).graph = s.graph.win id inputBytes outputBytes now ∧
      (s.won id inputBytes outputBytes now).failure = s.failure := by
  unfold won
  split <;> exact ⟨rfl, rfl⟩

/-- A win that finishes its vertex finishes the job if it was the last one, `allFinished`. -/
theorem finished_won {id : AttemptId} {inputBytes outputBytes : Option Nat} :
    (s.won id inputBytes outputBytes now).finished =
      (s.finished || ((s.graph.win id inputBytes outputBytes now).isFinished id.vertex &&
        (s.won id inputBytes outputBytes now).allFinished)) := by
  unfold won
  split
  · next h =>
    rw [h, Bool.true_and]
    rfl
  · next h =>
    rw [Bool.eq_false_iff.2 h, Bool.false_and, Bool.or_false]
    rfl

/-- The last win of a job leaves no attempt behind, and no other win ends it; so `Clean` is kept. -/
theorem Clean.won {id : AttemptId} {inputBytes outputBytes : Option Nat} (h : s.Clean)
    (hid : s.graph.Awaits id) (hsound : (s.won id inputBytes outputBytes now).Sound)
    (hwithin : (s.won id inputBytes outputBytes now).WithinJob) :
    (s.won id inputBytes outputBytes now).Clean := by
  intro hended
  by_cases hall : (s.won id inputBytes outputBytes now).allFinished = true
  · exact hwithin.not_isActive_of_allFinished hsound hall
  · have hlive := Bool.eq_false_iff.1 (h.not_terminal hid)
    refine absurd (isTerminal_of hended graph_won.2 ?_ ?_) hlive
    · rw [finished_won, Bool.eq_false_iff.2 hall, Bool.and_false, Bool.or_false]
    · intro available required hphase
      unfold Scheduler.won at hphase
      split at hphase
      · exact RescaleController.phase_of_failed_untrack hphase
      · exact hphase

/-- What comes before the look of a call leaves no attempt behind if it ends the job. -/
theorem Opening.clean {c : Call} (h : Opening now s c t) (hs : s.Sound) (hwithin : s.WithinJob)
    (hclean : s.Clean) : t.Clean := by
  have hsound := h.sound hs
  have hwithin' := h.withinJob hwithin
  cases h with
  | nothing | resources | tick => exact hclean
  | running awaits | progress awaits | failed awaits =>
    intro hended
    exact absurd hended (Bool.eq_false_iff.1 (hclean.not_terminal awaits))
  | finished awaits => exact hclean.won awaits hsound hwithin'
  | scaled =>
    apply restartAll_keeps hclean
    · intro u vertex parallelism _ _ hu
      exact hu.restarted vertex parallelism
    · intro u hu hended
      refine hu (isTerminal_of hended rfl rfl ?_)
      exact fun _ _ => RescaleController.phase_of_failed_awaitRestart

/-- The invariants behind the end of a job. -/
structure EndsCleanly (s : Scheduler) : Prop where
  /-- Attempts can be told apart, and won tasks hold no slots. -/
  sound : s.Sound
  /-- Only vertices of the job start. -/
  within : s.WithinJob
  /-- Once the job has ended, no attempt holds a slot. -/
  clean : s.Clean

/-- Every call keeps the invariants of `EndsCleanly`. -/
theorem EndsCleanly.after (h : s.EndsCleanly) (now : Instant) (c : Call) :
    (s.after now c).EndsCleanly := by
  obtain ⟨t, hopen, hsteps⟩ := after_steps h.sound now c
  have ht : t.EndsCleanly := ⟨hopen.sound h.sound, hopen.withinJob h.within,
    hopen.clean h.sound h.within h.clean⟩
  exact hsteps.keeps (fun u w hstep hu => ⟨hstep.sound hu.sound, hstep.withinJob hu.within,
    hstep.clean hu.sound hu.clean⟩) ht

/-- A new job has the invariants of `EndsCleanly`: nothing runs in it. -/
theorem EndsCleanly.of_submit (h : submit config job backend start = .ok s) : s.EndsCleanly := by
  refine ⟨.of_submit h, .of_submit h, ?_⟩
  intro _ id hactive
  obtain ⟨v, _, hv, -⟩ := hactive.exists_task
  rw [graph_of_submit h, get?_empty] at hv
  cases hv

/-- Every history keeps the invariants of `EndsCleanly`. -/
theorem EndsCleanly.run (h : s.EndsCleanly) (history : History) : (s.run history).EndsCleanly :=
  run_induction h (fun _ now c ht => ht.after now c) history

/-! ## Nothing changes any more -/

/-- A report about an attempt that is not awaited leaves the state as it was, if what follows it,
`k`, does so for a stray one. -/
theorem ensures_report_of_not_awaits {α β : Type} {id : AttemptId} {change : Task → Task}
    {result : ExecutionGraph → α} {k : Reported α → Scheduling β} (h : ¬s.graph.Awaits id)
    (hstray : ∀ reason, (k (.stray reason)).Ensures s (fun _ t => t = s) fun t => t = s) :
    (onGraph (·.report id change result) >>= k).Ensures s (fun _ t => t = s) fun t => t = s := by
  rw [ensures_bind]
  exact ensures_report (fun _ reason => hstray reason) (fun _ => rfl) fun hid => absurd hid h

/-- A job that has ended stays exactly as it is, whatever it is told: `s.after now c = s`. -/
theorem after_of_ended (hclean : s.Clean) (hended : s.status.isTerminal = true) (now : Instant)
    (c : Call) : s.after now c = s := by
  have hnot (id : AttemptId) : ¬s.graph.Awaits id := fun hid => hclean hended id hid.isActive
  refine ensures_final (P := fun t => t = s) |>.1 ?_
  cases c with
  | tick =>
    unfold Call.perform tick
    rw [ensures_bind, ensures_bind, ensures_get, hended]
    rfl
  | poll =>
    show (poll now).Ensures s _ _
    unfold poll
    rw [ensures_bind, ensures_get, hended]
    rfl
  | event e =>
    cases e with
    | running id =>
      show (attemptRunning id now >>= _ : Scheduling (Option ScaleRequest)).Ensures s _ _
      unfold attemptRunning
      rw [ensures_bind]
      exact ensures_report_of_not_awaits (hnot id) fun _ => rfl
    | progress id bytes =>
      show (attemptProgressed id bytes >>= _ : Scheduling (Option ScaleRequest)).Ensures s _ _
      unfold attemptProgressed
      rw [ensures_bind]
      exact ensures_report_of_not_awaits (hnot id) fun _ => rfl
    | finished id inputBytes outputBytes =>
      show (attemptFinished id inputBytes outputBytes now >>= _ :
        Scheduling (Option ScaleRequest)).Ensures s _ _
      unfold attemptFinished
      rw [ensures_bind]
      exact ensures_report_of_not_awaits (hnot id) fun _ => rfl
    | failed id =>
      show (attemptFailed id now >>= _ : Scheduling (Option ScaleRequest)).Ensures s _ _
      unfold attemptFailed
      rw [ensures_bind]
      exact ensures_report_of_not_awaits (hnot id) fun _ => rfl
    | resources view =>
      show (resourcesChanged view now).Ensures s _ _
      unfold resourcesChanged
      rw [ensures_bind, ensures_get, hended]
      rfl
    | scaled request =>
      show (applyScale request now >>= _ : Scheduling (Option ScaleRequest)).Ensures s _ _
      have hstatus : (s.status != .rescaling) = true := by
        rw [bne_iff_ne]
        intro heq
        rw [heq] at hended
        cases hended
      unfold applyScale
      rw [ensures_bind, ensures_bind, ensures_get, hstatus]
      rfl

/-- A job that has ended stays exactly as it is, whatever follows: `s.run history = s`. -/
theorem run_of_ended (hclean : s.Clean) (hended : s.status.isTerminal = true) (history : History) :
    s.run history = s := by
  refine run_induction (J := fun t => t = s) rfl ?_ history
  rintro t now c rfl
  exact after_of_ended hclean hended now c

/-- **A job that has ended has ended for good.** When the status of a submitted job is `finished` or
`failed`, no attempt holds a slot (`activeIds = []`). Whatever it is told from then on, in whatever
order and at whatever times, its state stays exactly as it is: its status, why it has failed, the
execution, and what the backend was asked to do. -/
theorem ended_for_good (hsubmit : submit config job backend start = .ok s) (before after : History)
    (h : (s.run before).status = .finished ∨ (s.run before).status = .failed) :
    (s.run before).activeIds = [] ∧ s.run (before ++ after) = s.run before := by
  have hends := (EndsCleanly.of_submit hsubmit).run before
  have hended : (s.run before).status.isTerminal = true := by
    rcases h with h | h <;> rw [h] <;> rfl
  constructor
  · refine List.eq_nil_iff_forall_not_mem.2 fun id hid => hends.clean hended id ?_
    exact (mem_activeIds hends.sound.wellFormed).1 hid
  · rw [run_append]
    exact run_of_ended hends.clean hended after

/-! ### A failure -/

/-- The first attempt of the consumer of a pipeline. -/
def sampleConsumer : AttemptId :=
  { vertex := "consumer", subtask := 0, generation := 1, number := 0 }

/-- The pipeline runs on two slots, and its producer fails. -/
def sampleFailure : History :=
  [(.origin, .event (.resources (Sample.view 2))),
    (Sample.later, .event (.failed Sample.producerAttempt))]

/-- A late success of the consumer, another slot, a tick, a poll and a request. -/
def sampleAftermath : History :=
  [(Sample.later, .event (.finished sampleConsumer none (some 5))),
    (Sample.later, .event (.resources (Sample.view 3))), (Sample.latest, .tick),
    (Sample.latest, .poll), (Sample.latest, .event (.scaled Sample.request))]

/-- The attempt `sampleConsumer` held a slot until the producer failed; now none does, and the job
stays as it is. -/
theorem ended_for_good_sample : ∃ s,
    submit Sample.config Sample.pipeline .willing .origin = .ok s ∧
      (s.run sampleFailure).status = .failed ∧
      sampleConsumer ∈ (s.run [(.origin, .event (.resources (Sample.view 2)))]).activeIds ∧
      (s.run sampleFailure).activeIds = [] ∧
      s.run (sampleFailure ++ sampleAftermath) = s.run sampleFailure := by
  have htest : (submit Sample.config Sample.pipeline .willing .origin).toOption.any (fun s =>
      decide ((s.run sampleFailure).status = .failed ∧
        sampleConsumer ∈ (s.run [(.origin, .event (.resources (Sample.view 2)))]).activeIds)) =
        true := by
    decide +kernel
  obtain ⟨s, hs, heval⟩ := exists_of_submit htest
  obtain ⟨hstatus, hheld⟩ := of_decide_eq_true heval
  obtain ⟨hnone, hstays⟩ := ended_for_good hs sampleFailure sampleAftermath (Or.inr hstatus)
  exact ⟨s, hs, hstatus, hheld, hnone, hstays⟩

end Scheduler

end AdaptiveBatch
