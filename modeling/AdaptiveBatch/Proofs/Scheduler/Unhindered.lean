import AdaptiveBatch.Proofs.Scheduler.Exhaustion
import AdaptiveBatch.Proofs.Scheduler.Restarts

/-! # The scheduler is not in its own way

Looks, ticks and restarts change the execution on the scheduler's own account: they start
generations, add attempts and hand them to their nodes, and take a refused attempt as failed. None
of this is refused by the execution, wherever a job has come to, as long as the restarts that are
carried out give every vertex a task.

Passes are repeated until none starts a vertex, and nothing else ends them. Every pass but the last
starts a vertex, so there is at most one more than there are vertices that have not started.

* **`Scheduler.Passing`** — passes without a limit, with their number and how they end;
* **`Scheduler.exists_passing`** — the limit of `schedule` is never reached;
* **`Scheduler.avoids_poll`**, **`Scheduler.avoids_tick`**, **`Scheduler.avoids_applyScale`** — the
  calls that the execution does not refuse;
* **`Scheduler.unhindered`** — both, for every state that a submitted job comes to. -/

namespace AdaptiveBatch

namespace Scheduler

open Scheduling ExecutionGraph

variable {s t u : Scheduler} {now : Instant} {e : ExecutionError} {config : Config} {job : JobGraph}
  {backend : Backend} {start : Instant}

/-! ## Passes -/

/-- One pass: what needs a slot is placed, then what is ready is started; tells how many vertices
that were. -/
def pass (now : Instant) : Scheduling Nat := do
  placePending now
  startReady now

/-- Passes are repeated until one starts no vertex or ends early. So many they are, and so they
end. -/
inductive Passing (now : Instant) :
    Nat → Scheduler → EStateM.Result Interruption Scheduler Unit → Prop
  /-- The pass starts no vertex. -/
  | last {s t : Scheduler} (pass_eq : pass now s = .ok 0 t) : Passing now 1 s (.ok () t)
  /-- The pass ends early. -/
  | interrupted {s t : Scheduler} {i : Interruption} (pass_eq : pass now s = .error i t) :
      Passing now 1 s (.error i t)
  /-- The pass starts vertices, and another one follows. -/
  | next {s t : Scheduler} {started count : Nat} {r : EStateM.Result Interruption Scheduler Unit}
      (pass_eq : pass now s = .ok (started + 1) t) (rest : Passing now count t r) :
      Passing now (count + 1) s r

/-- Passes can go on in one way only: `Passing` determines their number and their end. -/
theorem Passing.unique {m n : Nat} {r r' : EStateM.Result Interruption Scheduler Unit}
    (h : Passing now m s r) (h' : Passing now n s r') : m = n ∧ r = r' := by
  induction h generalizing n with
  | last pass_eq =>
    cases h' with
    | last pass_eq' => rw [pass_eq] at pass_eq'; cases pass_eq'; exact ⟨rfl, rfl⟩
    | interrupted pass_eq' | next pass_eq' => rw [pass_eq] at pass_eq'; cases pass_eq'
  | interrupted pass_eq =>
    cases h' with
    | interrupted pass_eq' => rw [pass_eq] at pass_eq'; cases pass_eq'; exact ⟨rfl, rfl⟩
    | last pass_eq' | next pass_eq' => rw [pass_eq] at pass_eq'; cases pass_eq'
  | next pass_eq _ ih =>
    cases h' with
    | next pass_eq' rest' =>
      rw [pass_eq] at pass_eq'
      cases pass_eq'
      obtain ⟨rfl, rfl⟩ := ih rest'
      exact ⟨rfl, rfl⟩
    | last pass_eq' | interrupted pass_eq' => rw [pass_eq] at pass_eq'; cases pass_eq'

/-- Passes with a limit above zero begin with a `pass`, and end there if it starts no vertex. -/
theorem passes_succ (now : Instant) (limit : Nat) (s : Scheduler) :
    passes now (limit + 1) s = match pass now s with
      | .ok 0 t => .ok () t
      | .ok (_ + 1) t => passes now limit t
      | .error i t => .error i t := by
  have hpass : passes now (limit + 1) =
      (pass now >>= fun n => if n = 0 then pure () else passes now limit) := by
    rw [pass, bind_assoc]
    rfl
  rw [hpass]
  show EStateM.bind _ _ s = _
  unfold EStateM.bind
  cases pass now s with
  | error i t => rfl
  | ok n t =>
    cases n with
    | zero => rfl
    | succ n => simp

/-- A pass that starts `n` vertices leaves so many fewer that have not started. -/
theorem ensures_pass (hs : s.Sound) (hexecuting : s.isExecuting = true)
    (hlive : s.status.isTerminal = false) : (pass now).Ensures s
      (fun n t => PassSteps now s t ∧ (s.Known → t.unstarted + n ≤ s.unstarted))
      fun _ => True := by
  unfold pass
  rw [ensures_bind]
  refine (ensures_placePending hexecuting hlive hs.wellFormed).mono ?_ fun _ ht => ht
  rintro _ t ⟨hplace, -⟩
  refine (ensures_startReady (hplace.isExecuting_eq.trans hexecuting) (hplace.status_eq ▸ hlive)
    (hplace.steps.sound hs).nodup_order).mono ?_ fun _ _ => trivial
  rintro n u ⟨hstart, -, -, hcount⟩
  refine ⟨hplace.trans hstart, fun hknown => ?_⟩
  have hbound := hcount (hknown.sameJob hplace.sameJob)
  have hless := hplace.unstarted_le
  omega

/-- With a `limit` above the number of vertices that have not started, passes end by themselves. -/
theorem exists_passing : ∀ (limit : Nat) (s : Scheduler), s.Sound → s.Known →
    s.isExecuting = true → s.status.isTerminal = false → s.unstarted < limit →
      ∃ n ≤ s.unstarted + 1, Passing now n s (passes now limit s)
  | 0, _, _, _, _, _, hlt => absurd hlt (Nat.not_lt_zero _)
  | limit + 1, s, hs, hknown, hexecuting, hlive, hlt => by
    rw [passes_succ]
    cases hresult : pass now s with
    | error i t => exact ⟨1, by omega, .interrupted hresult⟩
    | ok n t =>
      cases n with
      | zero => exact ⟨1, by omega, .last hresult⟩
      | succ started =>
        obtain ⟨hsteps, hcount⟩ :=
          (ensures_of_eq_ok hresult).1 (ensures_pass hs hexecuting hlive)
        have hfewer := hcount hknown
        obtain ⟨n, hn, hrest⟩ := exists_passing limit t (hsteps.steps.sound hs)
          (hknown.sameJob hsteps.sameJob) (hsteps.isExecuting_eq.trans hexecuting)
          (hsteps.status_eq ▸ hlive) (by omega)
        exact ⟨n + 1, by omega, .next hresult hrest⟩

/-- Passes of a job that runs end by themselves, as `schedule` does, with at most one more than
there are `unstarted` vertices. -/
theorem exists_passing_schedule (hs : s.Sound) (hknown : s.Known)
    (hexecuting : s.isExecuting = true) (hlive : s.status.isTerminal = false) :
    ∃ n ≤ s.unstarted + 1, Passing now n s (schedule now s) := by
  have hschedule : schedule now s = passes now (s.unstarted + 1) s := by
    unfold schedule
    rw [get_bind_apply, hexecuting, hlive]
    rfl
  rw [hschedule]
  exact exists_passing _ s hs hknown hexecuting hlive (Nat.lt_succ_self _)

/-- The vertices that have not started, `u.unstarted`, counted in the job. -/
theorem unstarted_eq (hsubmit : submit config job backend start = .ok s) (hjob : s.SameJob u) :
    u.unstarted = job.vertices.countP fun v => (u.graph.get? v.id).isNone := by
  obtain ⟨order, horder, -, rfl⟩ := submit_eq_ok hsubmit
  have hlist : u.order = order.map (·.id) := hjob.2.2
  rw [unstarted, hlist, List.countP_map]
  exact (JobGraph.perm_topologicalOrder horder).countP_eq _

/-! ## Calls -/

/-- The check of the slot requests is not refused by the execution. -/
theorem avoids_checkSlotRequests : (checkSlotRequests now).Avoids (.execution e) s := by
  intro t heq
  rw [checkSlotRequests_eq] at heq
  cases hexpired : s.expired? now with
  | none => rw [hexpired] at heq; cases heq
  | some overdue => rw [hexpired] at heq; cases heq

/-- A poll is not refused by the execution. -/
theorem avoids_poll (hs : s.Sound) (h : s.Tracked) : (poll now).Avoids (.execution e) s := by
  unfold poll
  rw [avoids_get_bind]
  split
  · exact avoids_pure none s
  · refine avoids_look_bind hs h (fun _ _ => SchedulerError.noConfusion) ?_
    intro request? t hsound hadmitted
    rw [avoids_bind]
    refine ⟨avoids_schedule hsound hadmitted, fun _ u _ => ?_⟩
    rw [avoids_bind]
    exact ⟨avoids_checkSlotRequests, fun _ w _ => avoids_pure request? w⟩

/-- The search for slow attempts, with the launches, is not refused by the execution. -/
theorem avoids_speculate (hexecuting : s.isExecuting = true)
    (hlive : s.status.isTerminal = false) : (speculate now).Avoids (.execution e) s := by
  unfold speculate
  rw [avoids_get_bind]
  show (checked _ >>= _ : Scheduling (List AttemptId)).Avoids (.execution e) s
  rw [avoids_bind]
  refine ⟨avoids_checked _ s, ?_⟩
  rintro ⟨launches, speculation, registry⟩ t ht
  obtain ⟨hr, rfl⟩ := checked_eq_ok ht
  show (modify _ >>= _ : Scheduling (List AttemptId)).Avoids (.execution e) s
  rw [avoids_modify_bind, avoids_bind]
  refine ⟨?_, fun _ u _ => avoids_pure _ u⟩
  exact (ensures_launches hexecuting hlive hr).avoids

/-- A tick is not refused by the execution. -/
theorem avoids_tick (hs : s.Sound) (h : s.Tracked) : (tick now).Avoids (.execution e) s := by
  have hpurged : Opening now s .tick (s.purged now) := .tick
  have hsound : (s.purged now).Sound := hpurged.sound hs
  have hadmitted : (s.purged now).Admitted := (hpurged.tracked h).admitted
  -- What is launched for slow tasks is followed by passes.
  have hrest (launched : List AttemptId) (t : Scheduler) (ht : t.Sound) (ht' : t.Admitted) :
      (schedule now >>= fun _ => pure launched).Avoids (.execution e) t := by
    rw [avoids_bind]
    exact ⟨avoids_schedule ht ht', fun _ u _ => avoids_pure launched u⟩
  unfold tick
  rw [avoids_get_bind]
  split
  · exact avoids_pure [] s
  · next hcond =>
    have hlive : s.status.isTerminal = false := by simpa using hcond
    rw [avoids_modify_bind, avoids_get_bind]
    show (if (s.purged now).isExecuting = true then
        speculate now >>= fun launched => schedule now >>= fun _ => pure launched
      else pure [] >>= fun launched => schedule now >>= fun _ => pure launched :
        Scheduling (List AttemptId)).Avoids (.execution e) (s.purged now)
    split
    · next hexecuting =>
      rw [avoids_bind]
      refine ⟨avoids_speculate hexecuting hlive, fun launched t ht => ?_⟩
      have hsteps : Steps now (s.purged now) t :=
        ((ensures_of_eq_ok ht).1 (ensures_speculate hexecuting hlive)).steps hexecuting hlive
      exact hrest launched t (hsteps.sound hsound) (hadmitted.sameJob hsteps.sameJob)
    · exact hrest [] _ hsound hadmitted

/-- A request that gives every vertex a task is not refused by the execution. -/
theorem avoids_applyScale {request : ScaleRequest} (hs : s.Sound) (h : s.Tracked)
    (hpos : request.Positive) : (applyScale request now).Avoids (.execution e) s := by
  unfold applyScale
  rw [avoids_get_bind]
  split
  · exact avoids_pure () s
  · next hcond =>
    have hrescaling : s.status = .rescaling := by simpa using hcond
    have hopen : Opening now s (.event (.scaled request)) ((restartAll request now).final s) :=
      .scaled hrescaling
    rw [avoids_bind]
    constructor
    · -- The restarts are all carried out.
      intro t heq
      rw [restartAll_eq hpos] at heq
      cases heq
    intro _ t ht
    rw [final_of_eq_ok ht] at hopen
    exact avoids_look_bind (hopen.sound hs) (hopen.tracked h)
      (fun _ _ => SchedulerError.noConfusion) fun _ _ => avoids_schedule

/-! ## Every state -/

/-- **The scheduler is not in its own way.** After any history of a submitted job, the execution
refuses no look at the resources, no poll, no tick, and no restart that gives every vertex a task.
Wherever scheduling begins, after a call or in the middle of one, the passes of a job that runs end
by themselves and as `schedule` does, and there is at most one more of them than there are vertices
of the job that have not started. -/
theorem unhindered (hsubmit : submit config job backend start = .ok s) (history : History)
    (now : Instant) :
    (∀ e : ExecutionError,
      (∀ view, (resourcesChanged view now).Avoids (.execution e) (s.run history)) ∧
      (poll now).Avoids (.execution e) (s.run history) ∧
      (tick now).Avoids (.execution e) (s.run history) ∧
      ∀ request : ScaleRequest, request.Positive →
        (applyScale request now).Avoids (.execution e) (s.run history)) ∧
    ∀ time u, s.Visits time u → u.isExecuting = true → u.status.isTerminal = false →
      ∃ n ≤ (job.vertices.countP fun v => (u.graph.get? v.id).isNone) + 1,
        Passing now n u (schedule now u) ∧
        ∀ m r, Passing now m u r → m = n ∧ r = schedule now u := by
  obtain ⟨hs, h⟩ := sound_and_tracked_run (.of_submit hsubmit) (.of_submit hsubmit) history
  constructor
  · intro e
    exact ⟨fun view => avoids_resourcesChanged hs h, avoids_poll hs h, avoids_tick hs h,
      fun request => avoids_applyScale hs h⟩
  · intro time u hu hexecuting hlive
    obtain ⟨hsound, hjob⟩ := hu.sameJob (.of_submit hsubmit)
    obtain ⟨n, hn, hpassing⟩ : ∃ n ≤ u.unstarted + 1, Passing now n u (schedule now u) :=
      exists_passing_schedule hsound ((Known.of_submit hsubmit).sameJob hjob) hexecuting hlive
    rw [unstarted_eq hsubmit hjob] at hn
    exact ⟨n, hn, hpassing, fun m r hother => hother.unique hpassing⟩

/-- Every request of the small run gives the source two tasks, so it is `Positive`. -/
theorem positive_sampleRequest : Sample.request.Positive := by
  intro vertex p hp
  rw [Sample.request, ParallelismPlan.getElem?_insert] at hp
  split at hp
  · cases hp
    decide
  · simp at hp

/-- On one slot the passes of `Sample.pipeline` start with one vertex that has not started, so there
are at most two of them. Neither a poll nor a restart of the pipeline for two tasks is refused there
by the execution. -/
theorem unhindered_sample : ∃ s n,
    submit Sample.config Sample.pipeline .willing .origin = .ok s ∧
      s.Visits .origin (sampleFirstLook s) ∧ (sampleFirstLook s).isExecuting = true ∧
      (sampleFirstLook s).status.isTerminal = false ∧
      (Sample.pipeline.vertices.countP fun v =>
        ((sampleFirstLook s).graph.get? v.id).isNone) = 1 ∧
      n ≤ 2 ∧ Passing .origin n (sampleFirstLook s) (schedule .origin (sampleFirstLook s)) ∧
      (∀ e, (poll Sample.later).Avoids (.execution e) (s.run Sample.growth)) ∧
      Sample.request.Positive ∧
      ∀ e, (applyScale Sample.request Sample.later).Avoids (.execution e)
        (s.run Sample.growth) := by
  have htest : (submit Sample.config Sample.pipeline .willing .origin).toOption.any (fun s =>
      (sampleFirstLook s).isExecuting && !(sampleFirstLook s).status.isTerminal &&
        decide ((Sample.pipeline.vertices.countP fun v =>
          ((sampleFirstLook s).graph.get? v.id).isNone) = 1)) = true := by
    decide +kernel
  obtain ⟨s, hs, heval⟩ := exists_of_submit htest
  simp only [Bool.and_eq_true, Bool.not_eq_true', decide_eq_true_eq] at heval
  obtain ⟨⟨hexecuting, hlive⟩, hcount⟩ := heval
  have hvisits : s.Visits .origin (sampleFirstLook s) :=
    ⟨[], .event (.resources (Sample.view 1)), _, .resources, .single .look⟩
  obtain ⟨-, hpasses⟩ := unhindered hs [] .origin
  obtain ⟨n, hn, hpassing, -⟩ := hpasses .origin _ hvisits hexecuting hlive
  rw [hcount] at hn
  obtain ⟨hcalls, -⟩ := unhindered hs Sample.growth Sample.later
  exact ⟨s, n, hs, hvisits, hexecuting, hlive, hcount, hn, hpassing, fun e => (hcalls e).2.1,
    positive_sampleRequest, fun e => (hcalls e).2.2.2 _ positive_sampleRequest⟩

end Scheduler

end AdaptiveBatch
