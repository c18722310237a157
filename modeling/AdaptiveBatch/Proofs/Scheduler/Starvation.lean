import AdaptiveBatch.Proofs.Scheduler.Adequacy
import AdaptiveBatch.Proofs.Scheduler.Course
import AdaptiveBatch.Proofs.Scheduler.Ledger
import AdaptiveBatch.Proofs.Scheduler.Placements

/-! # Tasks that wait were never placed

A task needs a slot when it has neither a winner nor an active attempt. An attempt that was started
can end in three ways: it wins its task, which then needs no slot; it is given up together with its
generation, so that its task is gone; or it fails, and then another attempt of the task is active or
the whole job fails. So in a job that has not failed, a task that needs a slot has never had one:
the backend has refused all of its attempts. The time it has waited is therefore the time since its
creation, or since the job was started again.

* **`Attempt.Refused`**, **`Task.NeverPlaced`** — what the ledger says about such a task;
* **`Scheduler.PendingUnplaced`** — the invariant, kept by every step and every call;
* **`Scheduler.generation_lt_of_isPending`** — accepted attempts in the place of such a task belong to
  earlier generations;
* **`Scheduler.pending_never_placed`** — in every run, and for tasks that have waited too long. -/

namespace AdaptiveBatch

/-! ## Tasks that were never placed -/

/-- The attempt has failed because the backend has refused to start it. -/
structure Attempt.Refused (calls : List BackendCall) (a : Attempt) : Prop where
  /-- It has failed. -/
  failed : a.status = .failed
  /-- The ledger says that it was refused, when it was created. -/
  line : .deploy a.id a.node a.createdAt false ∈ calls

/-- The backend has refused every attempt of the task. -/
def Task.NeverPlaced (calls : List BackendCall) (t : Task) : Prop :=
  ∀ a ∈ t.attempts, a.Refused calls

namespace Task

variable {t : Task} {n : Nat} {calls calls' : List BackendCall}

/-- A task that was never placed was not so according to a longer ledger `calls'` either. -/
theorem NeverPlaced.mono (h : t.NeverPlaced calls) (hcalls : calls ⊆ calls') :
    t.NeverPlaced calls' :=
  fun a ha => ⟨(h a ha).failed, hcalls (h a ha).line⟩

/-- A task with an active attempt does not need a slot. -/
theorem IsActive.isPending_eq_false (h : t.IsActive n) : t.isPending = false := by
  obtain ⟨a, ha, hactive⟩ := h
  rw [Bool.eq_false_iff]
  intro hpending
  have hmem : a ∈ t.activeAttempts := mem_activeAttempts.2 ⟨List.mem_of_getElem? ha, hactive⟩
  rw [(isPending_iff.1 hpending).2] at hmem
  exact List.not_mem_nil hmem

/-- A task that needs a slot after one more attempt, `t.push a`, needed one before. -/
theorem isPending_of_push {a : Attempt} (h : (t.push a).isPending = true) : t.isPending = true := by
  obtain ⟨hwinner, hnone⟩ := isPending_iff.1 h
  refine isPending_iff.2 ⟨hwinner, ?_⟩
  unfold activeAttempts push at hnone
  rw [List.filter_append] at hnone
  exact (List.append_eq_nil_iff.1 hnone).1

end Task

/-- In an orderly ledger an attempt that was accepted was not refused. -/
theorem Orderly.not_refused {calls : List BackendCall} {id : AttemptId} {node : NodeId}
    {time : Instant} (h : Orderly calls) (hid : id ∈ acceptedIds calls) :
    .deploy id node time false ∉ calls := by
  intro hline
  induction calls with
  | nil => cases hid
  | cons call earlier ih =>
    have hdeployed {accepted : Bool} (hmem : .deploy id node time accepted ∈ earlier) :
        id ∈ deployedIds earlier := List.mem_filterMap.2 ⟨_, hmem, rfl⟩
    cases call with
    | deploy other place moment accepted =>
      obtain ⟨hnew, hearlier⟩ := h
      rw [acceptedIds_deploy] at hid
      -- Both lines would be about the attempt that this one hands out, or both are older.
      rcases List.mem_cons.1 hline with heq | hold
      · cases heq
        exact hnew (acceptedIds_subset hid)
      · split at hid
        · rcases List.mem_cons.1 hid with rfl | hid
          · exact hnew (hdeployed hold)
          · exact ih hearlier hid hold
        · exact ih hearlier hid hold
    | cancel other =>
      rcases List.mem_cons.1 hline with heq | hold
      · cases heq
      · exact ih h.2 hid hold

namespace Scheduler

open Scheduling ExecutionGraph

variable {s t u : Scheduler} {now : Instant} {c : Call} {vertex : VertexId} {k : Nat}
  {waited : Duration} {config : Config} {job : JobGraph} {start : Instant}
  {accepts : Nat → Bool}

/-! ## The invariant -/

/-- Unless the job has failed, every task that needs a slot was never placed. -/
def PendingUnplaced (s : Scheduler) : Prop :=
  s.failure = none → s.graph.EachTask fun t =>
    t.isPending = true → t.NeverPlaced s.backend.calls

/-- A job that has failed is not asked about its tasks: `PendingUnplaced` holds of it. -/
theorem PendingUnplaced.of_failure {e : SchedulerError} (h : s.failure = some e) :
    s.PendingUnplaced := by
  intro hnone
  rw [h] at hnone
  cases hnone

/-- More lines of the ledger make no difference to tasks that were never placed. -/
theorem PendingUnplaced.of_calls (h : s.PendingUnplaced) (hfailure : t.failure = s.failure)
    (hgraph : t.graph = s.graph) (hcalls : s.backend.calls ⊆ t.backend.calls) :
    t.PendingUnplaced := by
  intro hnone vertex v k task hv ht hpending
  rw [hgraph] at hv
  exact (h (hfailure ▸ hnone) vertex v k task hv ht hpending).mono hcalls

/-- A task changes by `f`, and more lines are written: only the changed task has to be looked at. -/
theorem PendingUnplaced.modifyTask {f : Task → Task} (h : s.PendingUnplaced)
    (hfailure : t.failure = s.failure) (hgraph : t.graph = s.graph.modifyTask vertex k f)
    (hcalls : s.backend.calls ⊆ t.backend.calls)
    (hf : ∀ v task, s.graph.get? vertex = some v → v.tasks[k]? = some task →
      (f task).isPending = true → (task.isPending = true → task.NeverPlaced t.backend.calls) →
        (f task).NeverPlaced t.backend.calls) : t.PendingUnplaced := by
  intro hnone
  have hold : s.graph.EachTask fun task =>
      task.isPending = true → task.NeverPlaced t.backend.calls :=
    fun vertex v k task hv ht hpending =>
      (h (hfailure ▸ hnone) vertex v k task hv ht hpending).mono hcalls
  rw [hgraph]
  exact hold.modifyTask fun v task hv ht hpending =>
    hf v task hv ht hpending (hold _ v _ task hv ht)

/-- A change `f` after which the task does not wait makes no difference to the others. -/
theorem PendingUnplaced.settle {f : Task → Task} (h : s.PendingUnplaced)
    (hfailure : t.failure = s.failure) (hgraph : t.graph = s.graph.modifyTask vertex k f)
    (hcalls : s.backend.calls ⊆ t.backend.calls)
    (hf : ∀ v task, s.graph.get? vertex = some v → v.tasks[k]? = some task →
      (f task).isPending = false) : t.PendingUnplaced := by
  refine h.modifyTask hfailure hgraph hcalls fun v task hv ht hpending => ?_
  rw [hf v task hv ht] at hpending
  cases hpending

/-- A new generation has tasks without attempts, which were never placed. -/
theorem PendingUnplaced.regenerate {parallelism : Nat} (h : s.PendingUnplaced)
    (hfailure : t.failure = s.failure)
    (hgraph : t.graph = s.graph.regenerate vertex parallelism now)
    (hcalls : s.backend.calls ⊆ t.backend.calls) : t.PendingUnplaced := by
  intro hnone
  rw [hgraph]
  refine EachTask.regenerate (fun vertex v k task hv ht hpending =>
    (h (hfailure ▸ hnone) vertex v k task hv ht hpending).mono hcalls) parallelism ?_
  -- A fresh task has no attempts.
  intro task hfresh _ a ha
  rw [hfresh] at ha
  exact absurd ha List.not_mem_nil

/-- Giving up attempts keeps all lines of the ledger. -/
theorem subset_calls_cancelAll (b : Backend) (ids : List AttemptId) :
    b.calls ⊆ (b.cancelAll ids).calls := by
  rw [Backend.calls_cancelAll]
  exact List.subset_append_right _ _

/-- Starting a vertex over leaves only tasks waiting that were never placed. -/
theorem PendingUnplaced.restarted (h : s.PendingUnplaced) (vertex : VertexId) (parallelism : Nat) :
    (s.restarted vertex parallelism now).PendingUnplaced :=
  h.regenerate rfl rfl (subset_calls_cancelAll _ _)

/-- An attempt is placed: the task has it, or it was refused like those before it, and so was never
placed. -/
theorem PendingUnplaced.placed {v : VertexExecution} {task : Task} {subtask : Nat} {node : NodeId}
    {speculative : Bool} (h : s.PendingUnplaced) :
    (s.placed (v.nextId vertex subtask task) node speculative now).PendingUnplaced := by
  have hcalls : (s.placed (v.nextId vertex subtask task) node speculative now).backend.calls =
      .deploy (v.nextId vertex subtask task) node now
        (s.backend.deploy (v.nextId vertex subtask task) node now).1 :: s.backend.calls := rfl
  have hgrows : s.backend.calls ⊆
      (s.placed (v.nextId vertex subtask task) node speculative now).backend.calls :=
    List.subset_cons_self _ _
  cases haccepted : (s.backend.deploy (v.nextId vertex subtask task) node now).1 with
  | true =>
    have hgraph : (s.placed (v.nextId vertex subtask task) node speculative now).graph =
        s.graph.modifyTask vertex subtask
          (·.push (.deploying (v.nextId vertex subtask task) node speculative now)) := by
      rw [Scheduler.placed, haccepted, if_pos rfl]
      rfl
    exact h.settle rfl hgraph hgrows fun w other _ _ =>
      Task.IsActive.isPending_eq_false (Task.isActive_push.2 (Or.inr ⟨rfl, rfl⟩))
  | false =>
    have hgraph : (s.placed (v.nextId vertex subtask task) node speculative now).graph =
        s.graph.modifyTask vertex subtask
          (·.push ((Attempt.deploying (v.nextId vertex subtask task) node speculative now).fail
            now)) := by
      rw [Scheduler.placed, haccepted, if_neg Bool.false_ne_true]
      rfl
    refine h.modifyTask rfl hgraph hgrows fun w other _ _ hpending hold a ha => ?_
    rcases List.mem_append.1 ha with hmem | hmem
    · exact hold (Task.isPending_of_push hpending) a hmem
    · obtain rfl := List.mem_singleton.1 hmem
      refine ⟨rfl, ?_⟩
      rw [hcalls, haccepted]
      exact List.mem_cons_self

/-- A look leaves only tasks waiting that were never placed. -/
theorem PendingUnplaced.look (h : s.PendingUnplaced) :
    ((Scheduler.look now).final s).PendingUnplaced :=
  look_keeps h (fun _ _ _ => h.of_calls rfl rfl (List.Subset.refl _))
    (fun _ vertex parallelism _ ht => ht.restarted vertex parallelism)
    (fun _ _ ht => ht.of_calls rfl rfl (List.Subset.refl _)) fun _ _ _ => .of_failure rfl

/-- A step of a call leaves only tasks waiting that were never placed. -/
theorem Step.pendingUnplaced (h : Step now s t) (hs : s.PendingUnplaced) : t.PendingUnplaced := by
  cases h with
  | place => exact hs.placed
  | start => exact hs.regenerate rfl rfl (List.Subset.refl _)
  | look => exact hs.look
  | giveUp e => exact .of_failure rfl
  | react | count => exact hs.of_calls rfl rfl (List.Subset.refl _)

/-! ## Calls -/

/-- A step of an awaited attempt that keeps its slot leaves its task as one that does not wait. -/
theorem PendingUnplaced.advanced {id : AttemptId} {advance : Attempt → Attempt}
    (h : s.PendingUnplaced) (hid : s.graph.Awaits id)
    (hadvance : ∀ a, a.isActive = true → (advance a).isActive = true) :
    (s.advanced id advance).PendingUnplaced := by
  obtain ⟨v, task, hv, -, ht, -, ⟨a, ha, hactive⟩, -⟩ := hid.exists_task
  refine h.settle rfl rfl (List.Subset.refl _) fun w other hw hother => ?_
  obtain ⟨rfl, rfl⟩ := task_unique hv ht hw hother
  refine Task.IsActive.isPending_eq_false (n := id.number) ?_
  rw [Task.isActive_modifyAttempt, if_pos rfl]
  exact ⟨a, ha, hadvance a hactive⟩

/-- A win leaves a task that is not pending, and cancels no attempt of any other. -/
theorem PendingUnplaced.won {id : AttemptId} {inputBytes outputBytes : Option Nat}
    (h : s.PendingUnplaced) : (s.won id inputBytes outputBytes now).PendingUnplaced := by
  have hwin : (s.winning id inputBytes outputBytes now).PendingUnplaced :=
    h.settle rfl rfl (subset_calls_cancelAll _ _) fun _ _ _ _ => rfl
  unfold Scheduler.won
  split
  · exact hwin.of_calls rfl rfl (List.Subset.refl _)
  · exact hwin

/-- Every opening but that of `.failed id` leaves only tasks waiting that were never placed. -/
theorem Opening.pendingUnplaced (h : Opening now s c t) (hc : ∀ id, c ≠ .event (.failed id))
    (hs : s.PendingUnplaced) : t.PendingUnplaced := by
  cases h with
  | nothing => exact hs
  | running awaits => exact hs.advanced awaits fun a _ => Attempt.isActive_run a now
  | progress awaits => exact hs.advanced awaits fun _ hactive => hactive
  | finished => exact hs.won
  | failed => exact absurd rfl (hc _)
  | resources | tick => exact hs.of_calls rfl rfl (List.Subset.refl _)
  | scaled =>
    exact restartAll_keeps hs (fun _ vertex parallelism _ _ ht => ht.restarted vertex parallelism)
      fun _ ht => ht.of_calls rfl rfl (List.Subset.refl _)

/-- When the attempt `id` fails, another one of its task is active, or the job fails. -/
theorem ensures_attemptFailed_pendingUnplaced {id : AttemptId} (hs : s.Sound)
    (h : s.PendingUnplaced) :
    (attemptFailed id now).Ensures s (fun _ => PendingUnplaced) PendingUnplaced := by
  unfold attemptFailed
  rw [ensures_bind]
  refine ensures_report (fun _ _ => h) (fun _ => h) fun hid => ?_
  have hopen : Opening now s (.event (.failed id)) (s.advanced id (·.fail now)) := .failed hid
  split
  · next heq => cases heq
  · next heq =>
    -- The task has an active attempt besides the one that has failed.
    obtain ⟨v, task, hv, -, ht, hof, -, -⟩ := hid.exists_task
    have hafter : (s.graph.modifyTask id.vertex id.subtask
        (·.modifyAttempt id.number (·.fail now))).taskOf? id =
          some (task.modifyAttempt id.number (·.fail now)) := by
      rw [taskOf?_modifyTask, if_pos ⟨rfl, rfl⟩, hof, Option.map_some]
    rw [hafter, Option.any_some] at heq
    have hsibling : 0 < (task.modifyAttempt id.number (·.fail now)).activeCount := by
      by_contra hnone
      rw [decide_eq_false hnone, if_neg Bool.false_ne_true] at heq
      cases heq
    have hadvanced : (s.advanced id (·.fail now)).PendingUnplaced := by
      refine h.settle rfl rfl (List.Subset.refl _) fun w other hw hother => ?_
      obtain ⟨rfl, rfl⟩ := task_unique hv ht hw hother
      rw [Bool.eq_false_iff]
      intro hpending
      rw [Task.activeCount_of_isPending hpending] at hsibling
      exact Nat.lt_irrefl 0 hsibling
    exact ensures_final.2 ((passSteps_schedule (hopen.sound hs)).steps.keeps
      (fun _ _ hstep => hstep.pendingUnplaced) hadvanced)
  · exact .of_failure rfl

/-- Every call leaves only tasks waiting that were never placed. -/
theorem PendingUnplaced.after (h : s.PendingUnplaced) (hs : s.Sound) (now : Instant) (c : Call) :
    (s.after now c).PendingUnplaced := by
  by_cases hc : ∃ id, c = .event (.failed id)
  · obtain ⟨id, rfl⟩ := hc
    refine ensures_final.1 ?_
    show (attemptFailed id now >>= _ : Scheduling (Option ScaleRequest)).Ensures s _ _
    rw [ensures_bind]
    exact (ensures_attemptFailed_pendingUnplaced hs h).mono (fun _ _ hu => hu) fun _ hu => hu
  · exact after_keeps hs (fun _ hopen => hopen.pendingUnplaced fun id heq => hc ⟨id, heq⟩)
      (fun _ _ hstep => hstep.pendingUnplaced) h

/-- In a new job no task waits, as nothing has started. -/
theorem PendingUnplaced.of_submit {backend : Backend}
    (h : submit config job backend start = .ok s) : s.PendingUnplaced := by
  intro _ vertex v k task hv
  rw [graph_of_submit h, get?_empty] at hv
  cases hv

/-- Every history leaves only tasks waiting that were never placed. -/
theorem PendingUnplaced.run (h : s.PendingUnplaced) (hs : s.Sound) (history : History) :
    (s.run history).PendingUnplaced := by
  have hboth := run_induction (J := fun t => t.Sound ∧ t.PendingUnplaced) ⟨hs, h⟩
    (fun _ now c ht => ⟨ht.1.after now c, ht.2.after ht.1 now c⟩) history
  exact hboth.2

/-! ## Accepted attempts -/

/-- All accepted attempts in the place of a task that needs a slot belong to generations before
`v.generation`. -/
theorem generation_lt_of_isPending {ended : List AttemptId} {v : VertexExecution} {task : Task}
    {id : AttemptId} (hs : s.Sound) (hledger : s.Ledger ended) (h : s.PendingUnplaced)
    (hfailure : s.failure = none) (hv : s.graph.get? id.vertex = some v)
    (ht : v.tasks[id.subtask]? = some task) (hpending : task.isPending = true)
    (haccepted : id ∈ acceptedIds s.backend.calls) : id.generation < v.generation := by
  obtain ⟨w, hw, hissued⟩ := hledger.issued id (acceptedIds_subset haccepted)
  obtain rfl : w = v := Option.some.inj (hw.symm.trans hv)
  refine hissued.resolve_right fun hsome => ?_
  -- In the current generation it would be an attempt of the task, and all of these were refused.
  obtain ⟨a, ha⟩ := Option.isSome_iff_exists.1 hsome
  obtain ⟨other, hother, hget⟩ := attempt?_eq_some_iff.1 ha
  obtain ⟨x, hx, hgen, htask⟩ := taskOf?_eq_some_iff.1 hother
  obtain ⟨rfl, rfl⟩ := task_unique hv ht hx htask
  have hid : a.id = id := by
    rw [((hs.wellFormed id.vertex w hv).task id.subtask task ht).id_eq id.number a hget, hgen]
  have hrefused := (h hfailure id.vertex w _ task hv ht hpending a (List.mem_of_getElem? hget)).line
  rw [hid] at hrefused
  exact hledger.orderly.not_refused haccepted hrefused

/-- A ledger that has only more lines about attempts that were given up has all lines it had. -/
theorem GivesUp.subset_calls (h : s.GivesUp t) : s.backend.calls ⊆ t.backend.calls := by
  obtain ⟨ids, hcalls⟩ := h
  rw [hcalls]
  exact List.subset_append_right _ _

/-- A step only adds lines to the ledger. -/
theorem Step.subset_calls (h : Step now s t) : s.backend.calls ⊆ t.backend.calls := by
  cases h with
  | place => exact List.subset_cons_self _ _
  | look => exact givesUp_look.subset_calls
  | giveUp => exact ((GivesUp.refl s).cancelAll rfl).subset_calls
  | start | react | count => exact List.Subset.refl _

/-- Lines are only added to the ledger, so what was accepted stays so: `acceptedIds` grows along
every history. -/
theorem acceptedIds_subset_run (hs : s.Sound) (history : History) :
    acceptedIds s.backend.calls ⊆ acceptedIds (s.run history).backend.calls := by
  have hcalls : s.backend.calls ⊆ (s.run history).backend.calls :=
    run_keeps (J := fun t => s.backend.calls ⊆ t.backend.calls) hs
      (fun _ _ _ _ hopen ht => List.Subset.trans ht hopen.givesUp.subset_calls)
      (fun _ _ _ hstep ht => List.Subset.trans ht hstep.subset_calls) (List.Subset.refl _) history
  exact List.filterMap_subset _ hcalls

/-! ## Tasks that have waited too long -/

/-- A cancellation leaves every task in its place, with the time of its creation, `createdAt`. -/
theorem createdAt_cancelEach {g : ExecutionGraph} {v : VertexExecution} {task : Task}
    (hv : g.get? vertex = some v) (ht : v.tasks[k]? = some task) (ids : List AttemptId)
    (now : Instant) : ∃ v' task', (g.cancelEach ids now).get? vertex = some v' ∧
      v'.generation = v.generation ∧ v'.tasks[k]? = some task' ∧
        task'.createdAt = task.createdAt := by
  refine cancelEach_keeps (J := fun g => ∃ v' task', g.get? vertex = some v' ∧
    v'.generation = v.generation ∧ v'.tasks[k]? = some task' ∧ task'.createdAt = task.createdAt)
    ⟨v, task, hv, rfl, ht, rfl⟩ ?_ ids
  rintro g id - ⟨v', task', hv', hgen, ht', hcreated⟩
  unfold modifyAttempt
  rw [get?_modifyTask]
  split
  · rw [hv']
    refine ⟨_, if id.subtask = k then task'.modifyAttempt id.number (·.cancel now) else task', rfl,
      hgen, ?_, ?_⟩
    · rw [List.getElem?_modify, ht']
      split <;> simp_all
    · split <;> exact hcreated
  · exact ⟨v', task', hv', hgen, ht', hcreated⟩

/-- A job that has just been started, at `now`, has not waited for anything. -/
theorem not_lt_since_max (d : Duration) (created now : Instant) :
    ¬d < now.since (max created now) := by
  have hmax : now ≤ max created now := by
    show now ≤ if created ≤ now then now else created
    split
    · exact Nat.le_refl _
    · next h => exact Nat.le_of_not_le h
  have hzero : (now.since (max created now)).nanos = 0 := Nat.sub_eq_zero_of_le hmax
  intro hlt
  have hnanos : d.nanos < (now.since (max created now)).nanos := hlt
  omega

/-- A poll that times out with `.slotRequestTimeout` finds a task that waits, and was never placed,
in a job that was started before. -/
theorem exists_of_timeout {ended : List AttemptId} (hs : s.Sound) (htracked : s.Tracked)
    (hledger : s.Ledger ended) (h : s.PendingUnplaced)
    (hpoll : poll now s = .error (.refused (.slotRequestTimeout vertex k waited)) t) :
    t.status = .failed ∧ ∃ v task since, t.graph.get? vertex = some v ∧ v.tasks[k]? = some task ∧
      s.runningSince = some since ∧ waited = now.since (max task.createdAt since) ∧
        s.config.slots.requestTimeout < waited ∧
          ∀ id ∈ acceptedIds t.backend.calls, id.vertex = vertex → id.subtask = k →
            id.generation < v.generation := by
  obtain ⟨hlive, request?, u, w, hlook, hschedule, hexpired, rfl⟩ :=
    poll_timed_out hs htracked hpoll
  have hu : Steps now s u := (Move.of_look hlook).steps hs
  have hpass : PassSteps now u w := final_of_eq_ok hschedule ▸ passSteps_schedule (hu.sound hs)
  have hsteps : Steps now s w := hu.trans hpass.steps
  have hfailure : w.failure = none := by
    rw [(congrArg Scheduler.failure hpass.frame :), (marks_of_look hlook).1,
      ← Option.not_isSome_iff_eq_none]
    exact fun hfailed => Bool.eq_false_iff.1 hlive (isTerminal_status_iff.2 (Or.inl hfailed))
  have hkeep := hsteps.keeps (J := fun x => x.Sound ∧ x.Ledger ended ∧ x.PendingUnplaced)
    (fun _ _ hstep hx => ⟨hstep.sound hx.1, hstep.ledger hx.1 hx.2.1, hstep.pendingUnplaced hx.2.2⟩)
    ⟨hs, hledger, h⟩
  obtain ⟨hsound, hwledger, hunplaced⟩ := hkeep
  obtain ⟨-, since, v, task, hsince, hv, ht, hpending, hwaited, hlong⟩ :=
    exists_of_expired? hsound.wellFormed hexpired
  -- The job was started before the poll: otherwise the task would not have waited at all.
  have hstarted : s.runningSince = some since := by
    have hlooked : ((look now).final s).runningSince = _ := runningSince_look htracked
    rw [final_of_eq_ok hlook, ← hpass.sameCourse.runningSince_eq, hsince] at hlooked
    split at hlooked
    · obtain rfl := Option.some.inj hlooked
      rw [hwaited] at hlong
      exact absurd hlong (not_lt_since_max _ _ _)
    · exact hlooked.symm
  obtain ⟨v', task', hv', hgen, ht', hcreated⟩ := createdAt_cancelEach hv ht w.activeIds now
  refine ⟨by simp [status, Scheduler.fail, cancelRemote], v', task', since, hv', ht', hstarted,
    ?_, ?_, ?_⟩
  · rw [hcreated]
    exact hwaited
  · rwa [hsteps.sameJob.1] at hlong
  · rintro id hid rfl rfl
    rw [hgen]
    refine generation_lt_of_isPending hsound hwledger hunplaced hfailure hv ht hpending ?_
    exact (Backend.acceptedIds_cancelAll : acceptedIds (w.fail _ now).backend.calls = _) ▸ hid

/-! ## Every run -/

/-- **Tasks that wait were never placed.** After any history of a submitted job that has not failed,
whatever the backend answers: every attempt of a task that needs a slot (`isPending`) has failed
because the backend has refused it. So once the backend has accepted an attempt (`acceptedIds`), its
task never needs a slot again, as long as its generation lasts and the job has not failed. When a
poll gives up for a task that has waited too long (`slotRequestTimeout`), all accepted attempts in
its place belong to earlier generations, and the time it has waited is the time since its creation,
or since the last of the `starts`, the calls that have taken the job into the running phase,
whichever is later. -/
theorem pending_never_placed (hsubmit : submit config job { accepts } start = .ok s) :
    (∀ (history : History) (vertex : VertexId) (v : VertexExecution) (k : Nat) (task : Task),
      (s.run history).failure = none → (s.run history).graph.get? vertex = some v →
        v.tasks[k]? = some task → task.isPending = true → ∀ a ∈ task.attempts,
          a.status = .failed ∧
            .deploy a.id a.node a.createdAt false ∈ (s.run history).backend.calls) ∧
    (∀ (before after : History) (id : AttemptId) (v : VertexExecution) (task : Task),
      id ∈ acceptedIds (s.run before).backend.calls → (s.run (before ++ after)).failure = none →
        (s.run (before ++ after)).graph.get? id.vertex = some v → v.generation = id.generation →
          v.tasks[id.subtask]? = some task → task.isPending = false) ∧
    ∀ (history : History) (now : Instant) (t : Scheduler) (vertex : VertexId) (k : Nat)
      (waited : Duration),
      poll now (s.run history) = .error (.refused (.slotRequestTimeout vertex k waited)) t →
        t.status = .failed ∧ ∃ v task since, t.graph.get? vertex = some v ∧
          v.tasks[k]? = some task ∧ (s.starts history).getLast? = some since ∧
            waited = now.since (max task.createdAt since) ∧
              config.slots.requestTimeout < waited ∧
                ∀ id ∈ acceptedIds t.backend.calls, id.vertex = vertex → id.subtask = k →
                  id.generation < v.generation := by
  have hsound : s.Sound := .of_submit hsubmit
  have hunplaced (history : History) : (s.run history).PendingUnplaced :=
    (PendingUnplaced.of_submit hsubmit).run hsound history
  have hledger (history : History) : (s.run history).Ledger (s.ended history) :=
    (Ledger.of_submit hsubmit).run hsound history
  refine ⟨?_, ?_, ?_⟩
  · intro history vertex v k task hfailure hv ht hpending a ha
    have hrefused := hunplaced history hfailure vertex v k task hv ht hpending a ha
    exact ⟨hrefused.failed, hrefused.line⟩
  · intro before after id v task hid hfailure hv hgen ht
    rw [Bool.eq_false_iff]
    intro hpending
    have haccepted : id ∈ acceptedIds (s.run (before ++ after)).backend.calls := by
      rw [run_append]
      exact acceptedIds_subset_run (hsound.run before) after hid
    have hlt := generation_lt_of_isPending (hsound.run _) (hledger _) (hunplaced _) hfailure hv ht
      hpending haccepted
    rw [hgen] at hlt
    exact Nat.lt_irrefl _ hlt
  · intro history now t vertex k waited hpoll
    obtain ⟨hrunsound, htracked⟩ := sound_and_tracked_run hsound (.of_submit hsubmit) history
    obtain ⟨hstatus, v, task, since, hv, ht, hsince, hwaited, hlong, hnone⟩ :=
      exists_of_timeout hrunsound htracked (hledger history) (hunplaced history) hpoll
    rw [runningSince_run hsound (.of_submit hsubmit) ?_] at hsince
    · refine ⟨hstatus, v, task, since, hv, ht, hsince, hwaited, ?_, hnone⟩
      have hconfig : s.config = config := by
        obtain ⟨order, -, -, rfl⟩ := submit_eq_ok hsubmit
        rfl
      rwa [(sameJob_run hsound history).1, hconfig] at hlong
    · obtain ⟨order, -, -, rfl⟩ := submit_eq_ok hsubmit
      rfl

/-- The first attempt of the producer. -/
def sampleProducer : AttemptId :=
  { vertex := "producer", subtask := 0, generation := 1, number := 0 }

/-- On one slot the `"producer"` is placed at once. Of the two tasks of the `"consumer"`, the first
one is refused, and the slot goes to the second one. So the first one waits until a poll gives
up. -/
theorem pending_never_placed_sample : ∃ s v task a x producer t since waited,
    submit Sample.config Sample.pipeline { accepts := Sample.accepts } .origin = .ok s ∧
      (s.run sampleScarcity).failure = none ∧
      (s.run sampleScarcity).graph.get? "consumer" = some v ∧ v.tasks[0]? = some task ∧
      task.isPending = true ∧ a ∈ task.attempts ∧ a.status = .failed ∧
      (s.run sampleScarcity).graph.get? "producer" = some x ∧ x.generation = 1 ∧
      x.tasks[0]? = some producer ∧ producer.isPending = false ∧
      poll samplePatience (s.run sampleScarcity) =
        .error (.refused (.slotRequestTimeout "consumer" 0 waited)) t ∧
      t.status = .failed ∧ (s.starts sampleScarcity).getLast? = some since ∧
      Sample.config.slots.requestTimeout < waited := by
  have htest : (submit Sample.config Sample.pipeline { accepts := Sample.accepts }
      .origin).toOption.any (fun s => decide ((s.run sampleScarcity).failure = none) &&
        ((s.run sampleScarcity).graph.get? "consumer").any (fun v => v.tasks[0]?.any fun task =>
          task.isPending && !task.attempts.isEmpty) &&
        decide (sampleProducer ∈ acceptedIds (s.run sampleScarcity).backend.calls) &&
        ((s.run sampleScarcity).graph.get? "producer").any (fun x =>
          decide (x.generation = 1) && x.tasks[0]?.isSome) &&
        decide (timeout? (poll samplePatience (s.run sampleScarcity)) = some ("consumer", 0))) =
        true := by
    decide +kernel
  obtain ⟨s, hs, heval⟩ := exists_of_submit htest
  simp only [Bool.and_eq_true, decide_eq_true_eq, Option.any_eq_true, Bool.not_eq_true',
    Option.isSome_iff_exists] at heval
  obtain ⟨⟨⟨⟨hfailure, v, hv, task, ht, hpending, hattempts⟩, haccepted⟩, x, hx, hgen, producer,
    hproducer⟩, hpoll⟩ := heval
  obtain ⟨a, ha⟩ : ∃ a, a ∈ task.attempts := by
    refine List.exists_mem_of_ne_nil _ fun hnil => ?_
    rw [hnil] at hattempts
    cases hattempts
  obtain ⟨waited, t, hlast⟩ := exists_of_timeout? hpoll
  obtain ⟨hrefused, hplaced, htimeout⟩ := pending_never_placed hs
  obtain ⟨hfailed, -⟩ := hrefused sampleScarcity "consumer" v 0 task hfailure hv ht hpending a ha
  obtain ⟨hstatus, -, -, since, -, -, hsince, -, hlong, -⟩ :=
    htimeout sampleScarcity samplePatience t "consumer" 0 waited hlast
  exact ⟨s, v, task, a, x, producer, t, since, waited, hs, hfailure, hv, ht, hpending, ha, hfailed,
    hx, hgen, hproducer,
    hplaced sampleScarcity [] sampleProducer x producer haccepted hfailure hx hgen hproducer,
    hlast, hstatus, hsince, hlong⟩

end Scheduler

end AdaptiveBatch
