import AdaptiveBatch.Proofs.Execution.NodeCounts
import AdaptiveBatch.Proofs.Scheduler.AttemptCap
import AdaptiveBatch.Proofs.Scheduler.Endings
import AdaptiveBatch.Proofs.Scheduler.Exhaustion
import Mathlib.Algebra.Order.BigOperators.Group.List
import Mathlib.Algebra.Order.Group.Nat

/-! # As many slots as tasks suffice

The parallelism of a vertex is compared with the number of slots of all nodes together, while
placing counts the slots of every node and the attempts of the vertex there. The two agree when
nothing else keeps attempts from being placed: without speculative execution no node is ever blocked
and no task has a second attempt, and a willing backend refuses none. A vertex with a task that
waits then has fewer attempts than tasks; if no node has room for it, it has at least as many
attempts as there are slots. So it has more tasks than there are slots, however these are spread and
whatever else runs there.

* **`VertexExecution.length_activeAttempts_lt`** — the attempts of a vertex with a task that waits;
* **`Scheduler.Plain`** — nothing else keeps attempts from being placed, kept by every opening and
  every move;
* **`Scheduler.Exhausted.not_isPending`** — a vertex that fits has no task that waits;
* **`Scheduler.slots_suffice`** — after every pass of a job, and for the tasks that have waited too
  long. -/

namespace AdaptiveBatch

/-! ## Counting -/

/-- A task without an attempt leaves fewer `activeAttempts` than tasks, if no task has two of
them. -/
theorem VertexExecution.length_activeAttempts_lt {v : VertexExecution} {t : Task}
    (hone : ∀ t ∈ v.tasks, t.activeCount ≤ 1) (ht : t ∈ v.tasks) (hnone : t.activeCount = 0) :
    v.activeAttempts.length < v.tasks.length :=
  calc v.activeAttempts.length = (v.tasks.map Task.activeCount).sum := List.length_flatMap
    _ < (v.tasks.map fun _ => 1).sum :=
      List.sum_lt_sum _ _ hone ⟨t, ht, hnone.trans_lt Nat.one_pos⟩
    _ = v.tasks.length := by simp

namespace Scheduler

open Scheduling ExecutionGraph

variable {s t u : Scheduler} {now : Instant} {vertex : VertexId} {k : Nat} {waited : Duration}
  {config : Config} {job : JobGraph} {backend : Backend} {start : Instant}

/-! ## Plain execution -/

/-- There are no speculative attempts, no node is blocked, and the backend refuses nothing. -/
structure Plain (s : Scheduler) : Prop where
  /-- Slow tasks get no further attempts. -/
  disabled : s.speculation.settings.enabled = false
  /-- No node is blocked. -/
  slow_eq : s.slow = ∅
  /-- No task has two active attempts. -/
  capped : s.graph.Capped 1
  /-- The backend accepts every attempt. -/
  willing : ∀ n, s.backend.accepts n = true

/-- Starting a vertex over keeps the execution `Plain`. -/
theorem Plain.restarted (h : s.Plain) (vertex : VertexId) (parallelism : Nat) :
    (s.restarted vertex parallelism now).Plain :=
  ⟨h.disabled, h.slow_eq, h.capped.regenerate parallelism, h.willing⟩

/-- Ending the job with a failure keeps the execution `Plain`. -/
theorem Plain.fail (h : s.Plain) (e : SchedulerError) : (s.fail e now).Plain :=
  ⟨h.disabled, h.slow_eq, h.capped.cancelEach _, h.willing⟩

/-- A step of a pass keeps the execution `Plain`: it gives an attempt only to a task that has
none. -/
theorem PassStep.plain (h : PassStep now s t) (hs : s.Plain) : t.Plain := by
  cases h with
  | place executing live vertex_eq task_eq pending room =>
    refine ⟨hs.disabled, hs.slow_eq, capped_placed hs.capped vertex_eq task_eq ?_, hs.willing⟩
    rw [Task.activeCount_of_isPending pending]
    exact Nat.one_pos
  | start => exact ⟨hs.disabled, hs.slow_eq, hs.capped.regenerate _, hs.willing⟩

/-- Any number of steps of passes keeps the execution `Plain`. -/
theorem PassSteps.plain (h : PassSteps now s t) (hs : s.Plain) : t.Plain :=
  h.keeps (fun _ _ hstep => hstep.plain) hs

/-- A look keeps the execution `Plain`. -/
theorem Plain.look (h : s.Plain) : ((Scheduler.look now).final s).Plain :=
  look_keeps h (fun _ _ _ => ⟨h.disabled, h.slow_eq, h.capped, h.willing⟩)
    (fun _ vertex parallelism _ ht => ht.restarted vertex parallelism)
    (fun _ _ ht => ⟨ht.disabled, ht.slow_eq, ht.capped, ht.willing⟩) fun _ e ht => ht.fail e

/-- Whatever a job does on its way, its execution stays `Plain`; without speculation no task gets a
second attempt. -/
theorem Move.plain (h : Move now s t) (hsound : s.Sound) (hs : s.Plain) : t.Plain := by
  cases h with
  | look => exact hs.look
  | schedule => exact (passSteps_schedule hsound).plain hs
  | speculate =>
    rw [final_of_eq_ok (speculate_eq_of_disabled hs.disabled)]
    exact hs
  | giveUp e => exact hs.fail e

/-- What comes before the look of a call keeps the execution `Plain`. -/
theorem Opening.plain {c : Call} (h : Opening now s c t) (hs : s.Plain) : t.Plain := by
  have hdisabled := h.speculation_eq ▸ hs.disabled
  have hcapped := h.capped hs.capped
  cases h with
  | finished =>
    unfold won
    split <;> exact ⟨hs.disabled, hs.slow_eq, hs.capped.win _ _, hs.willing⟩
  | scaled =>
    exact restartAll_keeps hs (fun _ vertex parallelism _ _ ht => ht.restarted vertex parallelism)
      fun _ ht => ⟨ht.disabled, ht.slow_eq, ht.capped, ht.willing⟩
  | tick => exact ⟨hdisabled, congrArg (SlowNodes.purge · now) hs.slow_eq, hcapped, hs.willing⟩
  | nothing | running | progress | failed | resources =>
    exact ⟨hdisabled, hs.slow_eq, hcapped, hs.willing⟩

/-- A new job is `Plain` if its settings disable speculation and its backend accepts every
attempt. -/
theorem Plain.of_submit (h : submit config job backend start = .ok s)
    (hdisabled : config.speculative.enabled = false) (hwilling : ∀ n, backend.accepts n = true) :
    s.Plain := by
  obtain ⟨order, -, -, rfl⟩ := submit_eq_ok h
  exact ⟨hdisabled, rfl, capped_empty, hwilling⟩

/-- An execution that is `Plain` stays so wherever the job comes to. -/
theorem Visits.plain (hu : s.Visits now u) (hsound : s.Sound) (hs : s.Plain) : u.Plain := by
  have hboth : u.Sound ∧ u.Plain := by
    refine Visits.keeps (J := fun t => t.Sound ∧ t.Plain) ?_ ?_ ⟨hsound, hs⟩ hu
    · intro now t c u hopen ht
      exact ⟨hopen.sound ht.1, hopen.plain ht.2⟩
    · intro now t u hmove ht
      exact ⟨(hmove.steps ht.1).sound ht.1, hmove.plain ht.1 ht.2⟩
  exact hboth.2

/-- The passes of a `Plain` execution are refused nothing: `refusals` stays. -/
theorem PassSteps.refusals_eq (h : PassSteps now s t) (hs : s.Plain) :
    t.backend.refusals = s.backend.refusals := by
  have hboth : t.Plain ∧ t.backend.refusals = s.backend.refusals := by
    refine h.keeps (J := fun t => t.Plain ∧ t.backend.refusals = s.backend.refusals) ?_ ⟨hs, rfl⟩
    rintro t u hstep ⟨ht, hsame⟩
    refine ⟨hstep.plain ht, ?_⟩
    cases hstep with
    | place =>
      rw [placed, Backend.refusals_deploy, hsame]
      exact (congrArg _ (if_pos (ht.willing _))).trans (Nat.add_zero _)
    | start => exact hsame
  exact hboth.2

/-! ## What fits has its slots -/

/-- Where nothing is left to place, a vertex with at most as many tasks as there are slots,
`v.parallelism ≤ slotCount`, has no task that waits. -/
theorem Exhausted.not_isPending (h : s.Exhausted now) (hs : s.Plain) (hwf : s.graph.WellFormed)
    {v : VertexExecution} (hv : s.graph.get? vertex = some v)
    (hfits : v.parallelism ≤ s.view.slotCount) : ∀ t ∈ v.tasks, t.isPending = false := by
  intro t ht
  by_contra hpending
  rw [Bool.not_eq_false] at hpending
  obtain ⟨k, hk⟩ := List.mem_iff_getElem?.1 ht
  have hfull := h.full vertex k ⟨t, taskAt?_eq_some_iff.2 ⟨v, hv, hk⟩, hpending⟩
  -- No node has room for the vertex, so its attempts take all slots.
  have htaken : s.view.slotCount ≤ (s.graph.vertexNodeCounts vertex).total := by
    refine ResourceView.slotCount_le_total fun node hnode => Nat.not_lt.1 fun hlt => ?_
    refine hfull node ⟨hnode, ?_, hlt⟩
    rw [hs.slow_eq]
    exact SlowNodes.isBlocked_empty node now
  have hone : ∀ t ∈ v.tasks, t.activeCount ≤ 1 := by
    intro t ht
    obtain ⟨i, hi⟩ := List.mem_iff_getElem?.1 ht
    exact hs.capped vertex v i t hv hi
  have hfewer := VertexExecution.length_activeAttempts_lt hone ht
    (Task.activeCount_of_isPending hpending)
  rw [total_vertexNodeCounts, hv, Option.elim_some] at htaken
  rw [(hwf vertex v hv).length_tasks] at hfewer
  omega

/-! ## Tasks that have waited too long -/

/-- An overdue task is one that waits, and has waited longer than `requestTimeout`. -/
theorem exists_of_overdueTask? {since : Instant} (hwf : s.graph.WellFormed)
    (h : s.overdueTask? since now = some (vertex, k, waited)) :
    ∃ v t, s.graph.get? vertex = some v ∧ v.tasks[k]? = some t ∧ t.isPending = true ∧
      waited = now.since (max t.createdAt since) ∧ s.config.slots.requestTimeout < waited := by
  obtain ⟨v, hv, hfound⟩ := List.exists_of_findSome?_eq_some h
  obtain ⟨t, ht, heq⟩ := Option.map_eq_some_iff.1 hfound
  obtain ⟨rfl, rfl, rfl⟩ : v.vertex = vertex ∧ t.subtask = k ∧ _ = waited := by simpa using heq
  obtain ⟨other, hother⟩ := mem_toList.1 hv
  obtain rfl := (hwf _ _ hother).vertex_eq
  obtain ⟨hmem, hpending⟩ := List.mem_filter.1 (List.mem_of_find?_eq_some ht)
  obtain ⟨i, hi⟩ := List.mem_iff_getElem?.1 hmem
  obtain rfl := ((hwf _ _ hother).task i t hi).subtask_eq
  have hoverdue := List.find?_some ht
  exact ⟨v, t, hother, hi, hpending, rfl, of_decide_eq_true hoverdue⟩

/-- The job gives up only while it runs, and for a task that has waited longer than `requestTimeout`
since its creation and since the last start. -/
theorem exists_of_expired? (hwf : s.graph.WellFormed)
    (h : s.expired? now = some (vertex, k, waited)) : s.isExecuting = true ∧
      ∃ since v t, s.runningSince = some since ∧ s.graph.get? vertex = some v ∧
        v.tasks[k]? = some t ∧ t.isPending = true ∧
          waited = now.since (max t.createdAt since) ∧ s.config.slots.requestTimeout < waited := by
  obtain ⟨since, hsince, hoverdue⟩ := Option.bind_eq_some_iff.1 h
  split at hoverdue
  · next hexecuting =>
    obtain ⟨v, t, hwaiting⟩ := exists_of_overdueTask? hwf hoverdue
    exact ⟨hexecuting, since, v, t, hsince, hwaiting⟩
  · cases hoverdue

/-- A look that returns does not end the job: it sets neither `failure` nor `finished`. -/
theorem marks_of_look {request? : Option ScaleRequest} (h : look now s = .ok request? u) :
    u.failure = s.failure ∧ u.finished = s.finished := by
  have hlook : (look now).Ensures s (fun _ t => t.failure = s.failure ∧ t.finished = s.finished)
      fun _ => True :=
    ensures_look_parts trivial (fun _ _ => trivial) (fun _ _ _ _ => ⟨rfl, rfl⟩)
      (fun _ _ _ _ _ _ _ _ _ _ ht => ht) (fun _ _ ht => ht) fun _ _ _ _ => trivial
  exact (ensures_of_eq_ok h).1 hlook

/-- A poll times out after a look and a pass, with a task for which the job gives up,
`w.expired? now`. -/
theorem poll_timed_out (hs : s.Sound) (h : s.Tracked)
    (hpoll : poll now s = .error (.refused (.slotRequestTimeout vertex k waited)) t) :
    s.status.isTerminal = false ∧ ∃ request? u w, look now s = .ok request? u ∧
      schedule now u = .ok () w ∧ w.expired? now = some (vertex, k, waited) ∧
        t = w.fail (.slotRequestTimeout vertex k waited) now := by
  unfold poll at hpoll
  rw [get_bind_apply] at hpoll
  split at hpoll
  · cases hpoll
  · next hlive =>
    -- Neither the look nor the pass times out.
    obtain ⟨request?, u, hlook, hafter⟩ :=
      refused_rest_of_bind (avoids_look h fun _ _ => SchedulerError.noConfusion) hpoll
    have hsteps : Steps now s u := (Move.of_look hlook).steps hs
    obtain ⟨_, w, hschedule, hrest⟩ := refused_rest_of_bind
      (avoids_schedule (hsteps.sound hs) (h.admitted.sameJob hsteps.sameJob)) hafter
    have hcheck := refused_of_bind (fun _ x _ => avoids_pure request? x) hrest
    rw [checkSlotRequests_eq] at hcheck
    refine ⟨Bool.eq_false_iff.2 hlive, request?, u, w, hlook, hschedule, ?_⟩
    cases hexpired : w.expired? now with
    | none =>
      rw [hexpired] at hcheck
      cases hcheck
    | some overdue =>
      rw [hexpired] at hcheck
      cases hcheck
      exact ⟨rfl, rfl⟩

/-! ## Every pass of a job -/

/-- A pass of a job leaves no task waiting whose vertex fits, `v.parallelism ≤ slotCount`. -/
theorem ensures_schedule_plain {time : Instant} (hsubmit : submit config job backend start = .ok s)
    (hplain : s.Plain) (hu : s.Visits time u) (hexecuting : u.isExecuting = true)
    (hlive : u.status.isTerminal = false) (now : Instant) :
    (schedule now).Ensures u
      (fun _ w => ∀ vertex v, w.graph.get? vertex = some v → v.parallelism ≤ w.view.slotCount →
        ∀ t ∈ v.tasks, t.isPending = false)
      (fun w => ∃ v ∈ job.vertices, w.graph.get? v.id = none ∧ w.isReady v.id = true ∧
        ∃ o, w.inputStatistics v.id = .error o) := by
  have hsound := Sound.of_submit hsubmit
  have husound := (hu.sameJob hsound).1
  have huplain := hu.plain hsound hplain
  refine (ensures_schedule_of_visits hsubmit hu now).mono ?_ fun _ hw => hw
  rintro _ w ⟨hpass, hexhausted⟩ vertex v hv hfits
  exact ((hexhausted hexecuting hlive).2 (hpass.refusals_eq huplain)).not_isPending
    (hpass.plain huplain) (hpass.steps.sound husound).wellFormed hv hfits

/-- The vertex of a task for which the job gives up with `.slotRequestTimeout` has more tasks than
there are slots. -/
theorem slotCount_lt_of_timeout (hsubmit : submit config job backend start = .ok s)
    (hplain : s.Plain) (history : History)
    (hpoll : poll now (s.run history) =
      .error (.refused (.slotRequestTimeout vertex k waited)) t) :
    ∃ v, t.graph.get? vertex = some v ∧ t.view.slotCount < v.parallelism := by
  obtain ⟨hsound, htracked⟩ :=
    sound_and_tracked_run (.of_submit hsubmit) (.of_submit hsubmit) history
  obtain ⟨hlive, request?, u, w, hlook, hschedule, hexpired, rfl⟩ :=
    poll_timed_out hsound htracked hpoll
  have hu : s.Visits now u := ⟨history, .poll, _, .nothing rfl, .single (.of_look hlook)⟩
  have husound := (hu.sameJob (.of_submit hsubmit)).1
  obtain ⟨hpass, -⟩ := (ensures_of_eq_ok hschedule).1 (ensures_schedule_exhausted husound)
  obtain ⟨hexecuting, -, v, task, -, hv, hi, hpending, -, -⟩ :=
    exists_of_expired? (hpass.steps.sound husound).wellFormed hexpired
  rw [hpass.isExecuting_eq] at hexecuting
  -- The pass was one of a job that runs, so a vertex that fits would not wait.
  have hulive : u.status.isTerminal = false := by
    rw [Bool.eq_false_iff, Ne, isTerminal_status_of_executing hexecuting, (marks_of_look hlook).1,
      (marks_of_look hlook).2]
    exact fun hended => Bool.eq_false_iff.1 hlive
      (isTerminal_status_iff.2 (hended.imp_right Or.inl))
  have hlarge : w.view.slotCount < v.parallelism := by
    by_contra hfits
    have hplaced := (ensures_of_eq_ok hschedule).1
      (ensures_schedule_plain hsubmit hplain hu hexecuting hulive now)
    rw [hplaced vertex v hv (Nat.not_lt.1 hfits) task (List.mem_of_getElem? hi)] at hpending
    cases hpending
  -- Giving up cancels attempts and leaves the vertex as large as it was.
  have hopen := VertexExecution.isFinished_eq_false hi (Task.isPending_iff.1 hpending).1
  have hsizes : w.graph.SameSizes (w.fail (.slotRequestTimeout vertex k waited) now).graph :=
    sameSizes_cancelEach w.activeIds
  obtain ⟨x, hx, hsize⟩ := hsizes.exists_get? hv hopen
  exact ⟨x, hx, hsize ▸ hlarge⟩

/-- **As many slots as tasks suffice.** Take a submitted job without speculative execution, and a
backend that accepts every attempt. After every pass of `schedule`, wherever it begins while the job
runs and has not ended, no task waits whose vertex has at most as many tasks as there are slots
(`v.parallelism ≤ w.view.slotCount`). The pass ends early only with a ready vertex whose inputs
cannot be added up. So a poll that gives up for a task that has waited too long does so only for a
vertex that has more tasks than there are slots. -/
theorem slots_suffice (hsubmit : submit config job backend start = .ok s)
    (hdisabled : config.speculative.enabled = false) (hwilling : ∀ n, backend.accepts n = true) :
    (∀ (time : Instant) (u : Scheduler), s.Visits time u → u.isExecuting = true →
      u.status.isTerminal = false → ∀ now : Instant, (schedule now).Ensures u
        (fun _ w => ∀ vertex v, w.graph.get? vertex = some v → v.parallelism ≤ w.view.slotCount →
          ∀ t ∈ v.tasks, t.isPending = false)
        (fun w => ∃ v ∈ job.vertices, w.graph.get? v.id = none ∧ w.isReady v.id = true ∧
          ∃ o, w.inputStatistics v.id = .error o)) ∧
      ∀ (history : History) (now : Instant) (t : Scheduler) (vertex : VertexId) (k : Nat)
        (waited : Duration), poll now (s.run history) =
          .error (.refused (.slotRequestTimeout vertex k waited)) t →
        ∃ v, t.graph.get? vertex = some v ∧ t.view.slotCount < v.parallelism := by
  have hplain := Plain.of_submit hsubmit hdisabled hwilling
  constructor
  · intro time u hu hexecuting hlive now
    exact ensures_schedule_plain hsubmit hplain hu hexecuting hlive now
  · intro history now t vertex k waited hpoll
    exact slotCount_lt_of_timeout hsubmit hplain history hpoll

/-! ### One slot for the pipeline -/

/-- Longer after the origin than a task may wait. -/
def samplePatience : Instant := ⟨1000 * nanosPerSecond, by decide⟩

/-- The pipeline has one slot from the beginning. -/
def sampleScarcity : History := [(.origin, .event (.resources (Sample.view 1)))]

/-- The task for which a call has timed out. -/
def timeout? {α : Type} : EStateM.Result Interruption Scheduler α → Option (VertexId × Nat)
  | .error (.refused (.slotRequestTimeout vertex k _)) _ => some (vertex, k)
  | _ => none

/-- A call for which `timeout?` finds a task was refused with `.slotRequestTimeout` for it. -/
theorem exists_of_timeout? {α : Type} {r : EStateM.Result Interruption Scheduler α}
    (h : timeout? r = some (vertex, k)) :
    ∃ waited t, r = .error (.refused (.slotRequestTimeout vertex k waited)) t := by
  unfold timeout? at h
  split at h
  · cases h
    exact ⟨_, _, rfl⟩
  · cases h

/-- On one slot the only task of the `"producer"` is placed at once. Of the two tasks of the
`"consumer"` one waits, until a poll gives up for it. -/
theorem slots_suffice_sample : ∃ s w t v x waited,
    submit Sample.config Sample.pipeline .willing .origin = .ok s ∧
      schedule .origin (sampleFirstLook s) = .ok () w ∧
      w.graph.get? "producer" = some v ∧ v.parallelism = 1 ∧ w.view.slotCount = 1 ∧
      (∀ task ∈ v.tasks, task.isPending = false) ∧
      poll samplePatience (s.run sampleScarcity) =
        .error (.refused (.slotRequestTimeout "consumer" 1 waited)) t ∧
      t.graph.get? "consumer" = some x ∧ t.view.slotCount < x.parallelism := by
  have htest : (submit Sample.config Sample.pipeline .willing .origin).toOption.any (fun s =>
      (sampleFirstLook s).isExecuting && !(sampleFirstLook s).status.isTerminal &&
        (sampleFirstLook s).schedules .origin (fun w => decide (w.view.slotCount = 1) &&
          (w.graph.get? "producer").any fun v => decide (v.parallelism = 1)) &&
        decide (timeout? (poll samplePatience (s.run sampleScarcity)) = some ("consumer", 1))) =
        true := by
    decide +kernel
  obtain ⟨s, hs, heval⟩ := exists_of_submit htest
  simp only [Bool.and_eq_true, Bool.not_eq_true', decide_eq_true_eq] at heval
  obtain ⟨⟨⟨hexecuting, hlive⟩, hschedule⟩, hpoll⟩ := heval
  have hvisits : s.Visits .origin (sampleFirstLook s) :=
    ⟨[], .event (.resources (Sample.view 1)), _, .resources, .single .look⟩
  obtain ⟨hplaced, htimeout⟩ := slots_suffice hs rfl fun _ => rfl
  obtain ⟨w, hw, htests⟩ := exists_of_schedules hschedule
  simp only [Bool.and_eq_true, decide_eq_true_eq, Option.any_eq_true] at htests
  obtain ⟨hslots, v, hv, hsize⟩ := htests
  have hpass := (ensures_of_eq_ok hw).1 (hplaced .origin _ hvisits hexecuting hlive .origin)
  obtain ⟨waited, t, hlast⟩ := exists_of_timeout? hpoll
  obtain ⟨x, hx, hlarge⟩ := htimeout sampleScarcity samplePatience t _ _ waited hlast
  exact ⟨s, w, t, v, x, waited, hs, hw, hv, hsize, hslots,
    hpass "producer" v hv (hsize.trans hslots.symm).le, hlast, hx, hlarge⟩

end Scheduler

end AdaptiveBatch
