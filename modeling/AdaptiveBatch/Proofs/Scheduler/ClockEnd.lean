import AdaptiveBatch.Proofs.Config.Readings
import AdaptiveBatch.Proofs.Rescale.Runs
import AdaptiveBatch.Proofs.Scheduler.Abandonment

/-! # The end of the clock

Settings may name any duration, and the clock ends. Where time that has passed is compared with a
duration, nothing can happen to that: a duration that is too long is never reached. But three ends
are computed in advance, as points in time: that of a wait for resources when the next deadline is
asked for, that of the stabilization when its timer is armed, and that of a block when a node is
blocked. Each of these is abandoned when the end lies beyond the end of the clock, and nothing else
is abandoned for it.

* **`RescaleController.WaitsBeyond`**, **`RescaleController.ArmsBeyond`**,
  **`Scheduler.BlocksBeyond`** — where an end is computed that lies beyond;
* **`RescaleController.nextDeadline?_eq_error_iff`**, **`RescaleController.evaluate_eq_error_iff`**,
  **`Speculation.react_eq_error_iff`** — the three computations;
* **`RescaleController.perform_eq_error_iff`**, **`Scheduler.perform_eq_abandoned_clock_iff`** — the
  calls on a controller and on a scheduler that need them (`Beyond`);
* **`Scheduler.abandoned_at_clock_end`** — all of this for a submitted job. -/

namespace AdaptiveBatch

/-- A duration cannot be added to `t` iff that leads to `Instant.limit` or beyond, and then for
`.clock`. -/
theorem Instant.add_eq_error_iff {t : Instant} {d : Duration} {o : Overflow} :
    t.add d = .error o ↔ o = .clock ∧ Instant.limit ≤ t.nanos + d.nanos := by
  unfold Instant.add Instant.add?
  by_cases h : t.nanos + d.nanos < Instant.limit
  · rw [dif_pos h]
    simp [Nat.not_le.2 h]
  · rw [dif_neg h]
    simp [Nat.not_lt.1 h, eq_comm]

/-! ## Deadlines and timers -/

namespace RescaleController

variable {c : RescaleController} {since now : Instant} {timeout : Duration} {o : Overflow}

/-- The job waits for resources, and may wait for so long that the clock ends before. -/
inductive WaitsBeyond (c : RescaleController) : Prop
  /-- The end of the wait lies beyond. -/
  | intro {since : Instant} {target : ParallelismPlan} {timer : Option Stabilization}
      {timeout : Duration} (waiting : c.phase = .waiting since target timer)
      (timeout_eq : c.settings.waitTimeout.duration? = some timeout)
      (beyond : Instant.limit ≤ since.nanos + timeout.nanos)

/-- One look at the resources arms the stabilization timer, which is to fire when the clock has
ended. -/
inductive ArmsBeyond (c : RescaleController) (now : Instant) : Prop
  /-- The slots suffice for less than the plan, no timer is armed for so many, and its end lies
  beyond. -/
  | intro {since : Instant} {target : ParallelismPlan} {old : Option Stabilization}
      (waiting : c.phase = .waiting since target old) (tight : c.view.slotCount < target.slots)
      (inTime : c.waitIsOver since now = false) (enough : c.requiredSlots ≤ c.view.slotCount)
      (unarmed : old.filter (c.view.slotCount ≤ ·.slots) = none)
      (beyond : Instant.limit ≤ now.nanos + c.settings.stabilizationTimeout.nanos)

/-- A `timeout` that ends beyond the clock is never over. -/
theorem waitIsOver_eq_false (htimeout : c.settings.waitTimeout.duration? = some timeout)
    (hbeyond : Instant.limit ≤ since.nanos + timeout.nanos) (now : Instant) :
    c.waitIsOver since now = false := by
  unfold waitIsOver
  rw [htimeout, Option.any_some, decide_eq_false_iff_not, Duration.le_iff]
  show ¬timeout.nanos ≤ now.nanos - since.nanos
  have hnow := now.nanos_lt
  have hsince := since.nanos_lt
  omega

/-- The next deadline is abandoned, for `.clock`, when a wait may last beyond the end of the clock,
`c.WaitsBeyond`. -/
theorem nextDeadline?_eq_error_iff :
    c.nextDeadline? now = .error o ↔ o = .clock ∧ c.WaitsBeyond := by
  constructor
  · intro h
    unfold nextDeadline? at h
    cases hphase : c.phase with
    | waiting since target timer =>
      simp only [hphase] at h
      cases htimeout : c.settings.waitTimeout.duration? with
      | none => rw [htimeout] at h; cases h
      | some timeout =>
        rw [htimeout] at h
        cases hend : since.add timeout with
        | ok e => simp only [hend] at h; cases h
        | error cause =>
          simp only [hend] at h
          cases h
          obtain ⟨rfl, hbeyond⟩ := Instant.add_eq_error_iff.1 hend
          exact ⟨rfl, hphase, htimeout, hbeyond⟩
    | running | evaluating | failed => simp only [hphase] at h; cases h
  · rintro ⟨rfl, hphase, htimeout, hbeyond⟩
    have hend := Instant.add_eq_error_iff.2 ⟨rfl, hbeyond⟩
    unfold nextDeadline?
    simp only [hphase, htimeout, hend]
    rfl

/-- A look is abandoned, for `.clock`, when it arms a timer that fires beyond the end of the clock,
`c.ArmsBeyond`. -/
theorem evaluate_eq_error_iff : c.evaluate now = .error o ↔ o = .clock ∧ c.ArmsBeyond now := by
  constructor
  · intro h
    cases hphase : c.phase with
    | waiting since target old =>
      have hlook : c.WaitingLook since target old now (c.evaluate now) :=
        waitingLook_evaluate hphase
      rw [h] at hlook
      cases hlook with
      | abandoned tight inTime enough unarmed deadline_eq =>
        obtain ⟨rfl, hbeyond⟩ := Instant.add_eq_error_iff.1 deadline_eq
        exact ⟨rfl, hphase, tight, inTime, enough, unarmed, hbeyond⟩
    | running | evaluating | failed =>
      unfold evaluate at h
      rw [hphase] at h
      cases h
  · rintro ⟨rfl, hphase, tight, inTime, enough, unarmed, hbeyond⟩
    have hdeadline := Instant.add_eq_error_iff.2 ⟨rfl, hbeyond⟩
    unfold evaluate
    rw [hphase]
    show c.evaluateWaiting _ _ _ now = _
    unfold evaluateWaiting stabilize
    rw [if_neg (Nat.not_le.2 tight), inTime, if_neg Bool.false_ne_true,
      if_neg (Nat.not_lt.2 enough), unarmed]
    simp only [hdeadline]
    rfl

/-- Waiting for a restart does not change the `settings`. -/
theorem settings_awaitRestart (c : RescaleController) (now : Instant) :
    (c.awaitRestart now).settings = c.settings := by
  unfold awaitRestart
  split <;> rfl

/-- A call on a controller arms a timer beyond the end of the clock: it looks at the resources with
its view, or after a restart that was asked for. -/
def Beyond (c : RescaleController) (now : Instant) : Operation → Prop
  | .resourcesChanged view => { c with view }.ArmsBeyond now
  | .poll => c.ArmsBeyond now
  | .restarted => (∃ request, c.phase = .evaluating request) ∧ (c.awaitRestart now).ArmsBeyond now
  | .track .. | .untrack _ => False

/-- A call on a controller is abandoned, for `.clock`, when it arms a timer beyond the end of the
clock, `c.Beyond now op`. -/
theorem perform_eq_error_iff {op : Operation} :
    c.perform now op = .error o ↔ o = .clock ∧ c.Beyond now op := by
  cases op with
  | resourcesChanged view => exact bind_pure_eq_error_iff.trans evaluate_eq_error_iff
  | poll => exact bind_pure_eq_error_iff.trans evaluate_eq_error_iff
  | restarted =>
    refine bind_pure_eq_error_iff.trans ?_
    unfold restarted Beyond
    cases hphase : c.phase with
    | evaluating request => simpa using evaluate_eq_error_iff
    | waiting | running | failed => simp [pure, Except.pure]
  | track | untrack => simp [perform, Beyond]

end RescaleController

/-! ## Blocks -/

/-- Nodes cannot be blocked when there are some and the end `now + d` of a block lies beyond the end
of the clock. -/
theorem SlowNodes.blockAll_eq_error_iff {s : SlowNodes} {nodes : List NodeId} {now : Instant}
    {d : Duration} {o : Overflow} : s.blockAll nodes now d = .error o ↔
      o = .clock ∧ nodes ≠ [] ∧ Instant.limit ≤ now.nanos + d.nanos := by
  constructor
  · intro h
    have hfails : ¬∃ t, s.blockAll nodes now d = .ok t := by
      rintro ⟨t, ht⟩
      rw [h] at ht
      cases ht
    rw [exists_blockAll_eq_ok_iff, not_or] at hfails
    obtain ⟨hnodes, hend⟩ := hfails
    obtain ⟨node, rest, rfl⟩ := List.exists_cons_of_ne_nil hnodes
    cases hadd : now.add d with
    | ok e => exact absurd ⟨e, hadd⟩ hend
    | error cause =>
      -- Already the first block is abandoned.
      rw [blockAll, List.foldlM_cons, block, hadd] at h
      cases h
      obtain ⟨rfl, hbeyond⟩ := Instant.add_eq_error_iff.1 hadd
      exact ⟨rfl, hnodes, hbeyond⟩
  · rintro ⟨rfl, hnodes, hbeyond⟩
    obtain ⟨node, rest, rfl⟩ := List.exists_cons_of_ne_nil hnodes
    rw [blockAll, List.foldlM_cons, block, Instant.add_eq_error_iff.2 ⟨rfl, hbeyond⟩]
    rfl

/-- The reaction to slow attempts is abandoned when it is enabled, there are some, and
`blockSlowNodeDuration` leads beyond the end of the clock. -/
theorem Speculation.react_eq_error_iff {s : Speculation} {slow : List SlowAttempt}
    {around : Surroundings} {o : Overflow} : s.react slow around = .error o ↔
      o = .clock ∧ s.settings.enabled = true ∧ slow ≠ [] ∧
        Instant.limit ≤ around.now.nanos + s.settings.blockSlowNodeDuration.nanos := by
  unfold react
  cases s.settings.enabled with
  | false => simp [pure, Except.pure]
  | true =>
    rw [if_pos rfl, eq_self_iff_true, true_and]
    refine bind_pure_eq_error_iff.trans (SlowNodes.blockAll_eq_error_iff.trans ?_)
    rw [Ne, List.map_eq_nil_iff]

/-! ## Calls -/

namespace Scheduler

open Scheduling

variable {s t u : Scheduler} {now : Instant}

/-- A tick finds slow attempts and blocks their nodes until the clock has ended. -/
structure BlocksBeyond (s : Scheduler) (now : Instant) : Prop where
  /-- Attempts may be started. -/
  executing : s.isExecuting = true
  /-- Slow tasks get further attempts. -/
  enabled : s.speculation.settings.enabled = true
  /-- Some attempt is slow. -/
  slow : s.config.slowAttempts s.graph now ≠ []
  /-- The end of its block lies beyond. -/
  beyond : Instant.limit ≤ now.nanos + s.speculation.settings.blockSlowNodeDuration.nanos

/-- The call computes an end beyond that of the clock: its look does, after a change of the view or
after a restart where the call is for these, or its tick does. -/
def Beyond (s : Scheduler) (now : Instant) : Call → Prop
  | .poll => s.status.isTerminal = false ∧ s.controller.ArmsBeyond now
  | .tick => s.status.isTerminal = false ∧ s.BlocksBeyond now
  | .event (.resources view) =>
    s.status.isTerminal = false ∧ (s.viewing view).controller.ArmsBeyond now
  | .event (.scaled request) =>
    s.status = .rescaling ∧ ∃ t, restartAll request now s = .ok () t ∧ t.controller.ArmsBeyond now
  | .event _ => False

/-- Checking the slot requests is not abandoned. -/
theorem spares_checkSlotRequests {o : Overflow} : Spares o (checkSlotRequests now) := by
  intro s t heq
  rw [checkSlotRequests_eq] at heq
  cases hexpired : s.expired? now with
  | none => rw [hexpired] at heq; cases heq
  | some overdue => rw [hexpired] at heq; cases heq

/-- A look with what follows it is abandoned for `.clock` when the look is, that is, when it
`ArmsBeyond`. -/
theorem look_bind_eq_abandoned_iff {α : Type} {f : Option ScaleRequest → Scheduling α}
    (hf : ∀ request?, Spares .clock (f request?)) :
    (∃ t, (look now >>= f) s = .error (.abandoned .clock) t) ↔ s.controller.ArmsBeyond now := by
  have hlook (t : Scheduler) : (look now >>= f) s = .error (.abandoned .clock) t ↔
      s.controller.evaluate now = .error .clock ∧ s = t :=
    (bind_eq_abandoned_iff hf).trans look_eq_abandoned_iff
  simp only [hlook, RescaleController.evaluate_eq_error_iff, true_and, exists_and_left,
    exists_eq', and_true]

/-- The passes of `schedule` are not abandoned for `.clock`, nor is what follows them if it is
not. -/
theorem spares_schedule_clock {α : Type} {f : Unit → Scheduling α}
    (hf : ∀ u, Spares .clock (f u)) : Spares .clock (schedule now >>= f) :=
  (spares_schedule Overflow.noConfusion).bind hf

/-- Nothing is done for a job that has ended; any other call is abandoned when `x` is. -/
theorem unlessTerminal_eq_abandoned_iff {α : Type} {a : α} {x : Scheduling α} {o : Overflow} :
    (∃ t, (if s.status.isTerminal = true then pure a else x : Scheduling α) s =
      .error (.abandoned o) t) ↔
        s.status.isTerminal = false ∧ ∃ t, x s = .error (.abandoned o) t := by
  cases s.status.isTerminal with
  | true => simp [pure, EStateM.pure]
  | false => simp

/-- A poll is abandoned for `.clock` iff the job has not ended and its look `ArmsBeyond`. -/
theorem poll_eq_abandoned_clock_iff : (∃ t, poll now s = .error (.abandoned .clock) t) ↔
    s.status.isTerminal = false ∧ s.controller.ArmsBeyond now := by
  unfold poll
  rw [get_bind_apply]
  refine unlessTerminal_eq_abandoned_iff.trans (and_congr_right fun _ => ?_)
  exact look_bind_eq_abandoned_iff fun request? => spares_schedule_clock fun _ =>
    spares_checkSlotRequests.bind fun _ => spares_pure _

/-- A change of the view is abandoned for `.clock` iff the job has not ended and the look at the new
view `ArmsBeyond`. -/
theorem resourcesChanged_eq_abandoned_clock_iff {view : ResourceView} :
    (∃ t, resourcesChanged view now s = .error (.abandoned .clock) t) ↔
      s.status.isTerminal = false ∧ (s.viewing view).controller.ArmsBeyond now := by
  unfold resourcesChanged
  rw [get_bind_apply]
  refine unlessTerminal_eq_abandoned_iff.trans (and_congr_right fun _ => ?_)
  exact look_bind_eq_abandoned_iff (s := s.viewing view) fun request? =>
    spares_schedule_clock fun _ => spares_pure _

/-- The search for slow attempts with what follows it is abandoned for `.clock` when it blocks
beyond the end of the clock. -/
theorem speculate_bind_eq_abandoned_iff {α : Type} {f : List AttemptId → Scheduling α}
    (hf : ∀ launched, Spares .clock (f launched)) :
    (∃ t, (speculate now >>= f) s = .error (.abandoned .clock) t) ↔
      s.speculation.settings.enabled = true ∧ s.config.slowAttempts s.graph now ≠ [] ∧
        Instant.limit ≤ now.nanos + s.speculation.settings.blockSlowNodeDuration.nanos := by
  have hspeculate (t : Scheduler) : (speculate now >>= f) s = .error (.abandoned .clock) t ↔ _ :=
    (bind_eq_abandoned_iff hf).trans speculate_eq_abandoned_iff
  simp only [hspeculate, Speculation.react_eq_error_iff, true_and, exists_and_left, exists_eq',
    and_true]

/-- A tick is abandoned for `.clock` iff the job has not ended and the tick `BlocksBeyond`. -/
theorem tick_eq_abandoned_clock_iff : (∃ t, tick now s = .error (.abandoned .clock) t) ↔
    s.status.isTerminal = false ∧ s.BlocksBeyond now := by
  have hrest (launched : List AttemptId) :
      Spares .clock (schedule now >>= fun _ => pure launched) :=
    spares_schedule_clock fun _ => spares_pure _
  unfold tick
  rw [get_bind_apply]
  refine unlessTerminal_eq_abandoned_iff.trans (and_congr_right fun _ => ?_)
  show (∃ t, (if (s.purged now).isExecuting = true then
      speculate now >>= fun launched => schedule now >>= fun _ => pure launched
    else pure [] >>= fun launched => schedule now >>= fun _ => pure launched :
      Scheduling (List AttemptId)) (s.purged now) = .error (.abandoned .clock) t) ↔ _
  split
  · next hexecuting =>
    refine (speculate_bind_eq_abandoned_iff hrest).trans ?_
    exact ⟨fun ⟨henabled, hslow, hbeyond⟩ => ⟨hexecuting, henabled, hslow, hbeyond⟩,
      fun h => ⟨h.enabled, h.slow, h.beyond⟩⟩
  · next hidle =>
    constructor
    · rintro ⟨t, ht⟩
      exact absurd ht ((spares_pure []).bind hrest _ t)
    · intro h
      exact absurd h.executing hidle

/-- Restarting the vertices of a request is not abandoned. -/
theorem spares_restartAll {o : Overflow} (request : ScaleRequest) :
    Spares o (restartAll request now) := by
  refine (Spares.forM (fun planned => spares_get.bind fun s => ?_) _).bind fun _ => spares_modify _
  split
  · exact spares_restart _ _
  · exact spares_pure _

/-- Carrying out a request is abandoned for `.clock` iff the job waits for that, its restarts
succeed, and the look after them `ArmsBeyond`. -/
theorem applyScale_eq_abandoned_clock_iff {request : ScaleRequest} :
    (∃ t, applyScale request now s = .error (.abandoned .clock) t) ↔
      s.status = .rescaling ∧
        ∃ t, restartAll request now s = .ok () t ∧ t.controller.ArmsBeyond now := by
  unfold applyScale
  rw [get_bind_apply]
  by_cases h : s.status = .rescaling
  · rw [h, bne_self_eq_false, if_neg Bool.false_ne_true, eq_self_iff_true, true_and]
    have hlook (t : Scheduler) : (∃ u, (look now >>= fun _ => schedule now) t =
        .error (.abandoned .clock) u) ↔ t.controller.ArmsBeyond now :=
      look_bind_eq_abandoned_iff fun _ => spares_schedule Overflow.noConfusion
    constructor
    · rintro ⟨u, hu⟩
      obtain ⟨_, t, hrestart, hrest⟩ :=
        (bind_eq_abandoned_iff_of_spares (spares_restartAll request)).1 hu
      exact ⟨t, hrestart, (hlook t).1 ⟨u, hrest⟩⟩
    · rintro ⟨t, hrestart, hbeyond⟩
      obtain ⟨u, hrest⟩ := (hlook t).2 hbeyond
      exact ⟨u, (bind_eq_abandoned_iff_of_spares (spares_restartAll request)).2
        ⟨(), t, hrestart, hrest⟩⟩
  · rw [if_pos (by simpa using h)]
    simp [h, pure, EStateM.pure]

/-- A call is abandoned for `.clock` when it computes an end beyond that of the clock,
`s.Beyond now c`. -/
theorem perform_eq_abandoned_clock_iff (s : Scheduler) (now : Instant) (c : Call) :
    (∃ t, c.perform now s = .error (.abandoned .clock) t) ↔ s.Beyond now c := by
  have hnone {α : Type} (x : Scheduling α) : (∃ t, (x >>= fun _ => pure none :
      Scheduling (Option ScaleRequest)) s = .error (.abandoned .clock) t) ↔
        ∃ t, x s = .error (.abandoned .clock) t :=
    exists_congr fun t => bind_eq_abandoned_iff fun _ => spares_pure none
  have hspares {x : Scheduling (Option ScaleRequest)} (hx : Spares .clock x) :
      (∃ t, x s = .error (.abandoned .clock) t) ↔ False :=
    iff_false_intro fun ⟨t, ht⟩ => hx s t ht
  have hschedule : Spares .clock (schedule now) := spares_schedule Overflow.noConfusion
  cases c with
  | tick => exact (hnone (tick now)).trans tick_eq_abandoned_clock_iff
  | poll => exact poll_eq_abandoned_clock_iff
  | event e =>
    cases e with
    | resources view => exact resourcesChanged_eq_abandoned_clock_iff
    | scaled request =>
      exact (hnone (applyScale request now)).trans applyScale_eq_abandoned_clock_iff
    | running id =>
      exact hspares (((spares_onGraph _).bind fun _ => spares_pure _).bind fun _ => spares_pure _)
    | progress id bytes =>
      exact hspares (((spares_onGraph _).bind fun _ => spares_pure _).bind fun _ => spares_pure _)
    | finished id inputBytes outputBytes =>
      refine hspares (((spares_onGraph _).bind fun outcome => ?_).bind fun _ => spares_pure _)
      split
      · exact spares_pure _
      · refine (spares_modify _).bind fun _ => ?_
        split
        · exact (spares_modify _).bind fun _ => hschedule
        · exact hschedule
    | failed id =>
      refine hspares (((spares_onGraph _).bind fun outcome => ?_).bind fun _ => spares_pure _)
      split
      · exact spares_pure _
      · exact hschedule
      · exact spares_giveUp _ _

/-! ## Settings -/

/-- The controller and the speculative execution go by the settings of a configuration. -/
structure Obeys (config : Config) (s : Scheduler) : Prop where
  /-- The controller does. -/
  rescale_eq : s.controller.settings = config.rescale
  /-- The speculative execution does. -/
  speculative_eq : s.speculation.settings = config.speculative

/-- A new job goes by the settings of its configuration. -/
theorem Obeys.of_submit {config : Config} {job : JobGraph} {backend : Backend}
    (h : submit config job backend now = .ok s) : s.Obeys config := by
  obtain ⟨order, -, -, rfl⟩ := submit_eq_ok h
  exact ⟨rfl, rfl⟩

/-- What leaves the settings of the controller and of the speculative execution alone keeps going by
them. -/
theorem Obeys.of_eq {config : Config} (h : s.Obeys config)
    (hcontroller : t.controller.settings = s.controller.settings)
    (hspeculation : t.speculation.settings = s.speculation.settings) : t.Obeys config :=
  ⟨hcontroller.trans h.rescale_eq, hspeculation.trans h.speculative_eq⟩

/-- What comes before the look of a call changes no settings. -/
theorem Opening.obeys {config : Config} {c : Call} (h : Opening now s c t) (hs : s.Obeys config) :
    t.Obeys config := by
  cases h with
  | nothing | running | progress | failed | resources | tick => exact hs.of_eq rfl rfl
  | finished => unfold won; split <;> exact hs.of_eq rfl rfl
  | scaled =>
    exact restartAll_keeps (J := Obeys config) hs (fun _ _ _ _ _ ht => ht.of_eq rfl rfl)
      fun u hu => hu.of_eq (u.controller.settings_awaitRestart now) rfl

/-- No step of a call changes the settings. -/
theorem Step.obeys {config : Config} (h : Step now s t) (hs : s.Obeys config) : t.Obeys config := by
  cases h with
  | place | start | giveUp => exact hs.of_eq rfl rfl
  | look =>
    exact look_keeps (J := Obeys config) hs (fun c _ heval => hs.of_eq heval.frame.2.1 rfl)
      (fun _ _ _ _ ht => ht.of_eq rfl rfl) (fun _ _ ht => ht.of_eq rfl rfl)
      fun _ _ ht => ht.of_eq rfl rfl
  | react executing live reacts => exact hs.of_eq rfl reacts.settings_eq
  | count => exact hs.of_eq rfl rfl

/-- **Accepted settings may reach beyond the end of the clock.** Take a job that was submitted with
an accepted configuration, in any state that it comes to; it goes by the settings of the
configuration (`Obeys`). A call is abandoned with `.clock` exactly when it arms a stabilization
timer, or blocks the node of a slow attempt, until a time beyond the end of the clock (`Beyond`). Of
a controller, in whatever state, the next deadline is abandoned exactly when it waits for resources
and may wait until then (`WaitsBeyond`), and a call exactly when it arms a timer until then, and
neither for anything else. A wait that may last beyond the end of the clock is never over. -/
theorem abandoned_at_clock_end {config : Config} {job : JobGraph} {backend : Backend}
    {start time : Instant} (hsubmit : submit config job backend start = .ok s)
    (hu : s.Visits time u) :
    u.Obeys config ∧
    (∀ now c, (∃ t, c.perform now u = .error (.abandoned .clock) t) ↔ u.Beyond now c) ∧
    ∀ (c : RescaleController) (now : Instant) (o : Overflow),
      (c.nextDeadline? now = .error o ↔ o = .clock ∧ c.WaitsBeyond) ∧
      (∀ op, c.perform now op = .error o ↔ o = .clock ∧ c.Beyond now op) ∧
      ∀ since timeout, c.settings.waitTimeout.duration? = some timeout →
        Instant.limit ≤ since.nanos + timeout.nanos → c.waitIsOver since now = false := by
  have hobeys : u.Obeys config :=
    (Visits.keeps_of_steps (J := Obeys config) (.of_submit hsubmit)
      (fun _ _ _ _ hopen => hopen.obeys) (fun _ _ _ hstep => hstep.obeys) (.of_submit hsubmit) hu).2
  refine ⟨hobeys, perform_eq_abandoned_clock_iff u, fun c now o => ⟨?_, ?_, ?_⟩⟩
  · exact RescaleController.nextDeadline?_eq_error_iff
  · exact fun op => RescaleController.perform_eq_error_iff
  · exact fun since timeout htimeout hbeyond =>
      RescaleController.waitIsOver_eq_false htimeout hbeyond now

end Scheduler

/-! ## Two timeouts -/

namespace Sample

/-- As many seconds as a duration can have. -/
def longest : Duration := ⟨18446744073709551615 * nanosPerSecond, by decide⟩

/-- Options with two such timeouts. -/
def longestOptions : Options where
  maxParallelism := some 2
  resourceWaitTimeout := some "18446744073709551615s"
  resourceStabilizationTimeout := some "18446744073709551615s"

/-- What these options resolve to. -/
def longestConfig : Config where
  auto := { maxParallelism := some 2 }
  rescale := { waitTimeout := .after longest, stabilizationTimeout := longest }

/-- One slot, where the job could use two: a reason to wait for the stabilization timeout. -/
def oneSlot : Call := .event (.resources (view 1))

end Sample

namespace Scheduler

/-- A job with the timeouts of `longestConfig` cannot be asked for its next deadline, nor be told
about one slot. -/
theorem exists_longest : ∃ s t,
    submit Sample.longestConfig Sample.job .willing .origin = .ok s ∧
      s.controller.nextDeadline? .origin = .error .clock ∧
      Sample.oneSlot.perform .origin s = .error (.abandoned .clock) t := by
  have heval : (submit Sample.longestConfig Sample.job .willing .origin).toOption.any (fun s =>
      decide (s.controller.nextDeadline? .origin = .error .clock) &&
        abandonedFor .clock (fun _ => true) (Sample.oneSlot.perform .origin s)) = true := by
    decide +kernel
  obtain ⟨s, hs, htests⟩ := exists_of_submit heval
  obtain ⟨hdeadline, hcall⟩ := Bool.and_eq_true_iff.1 htests
  obtain ⟨t, ht, -⟩ := exists_of_abandonedFor hcall
  exact ⟨s, t, hs, of_decide_eq_true hdeadline, ht⟩

/-- The `longestOptions` are accepted, and the new job waits for resources. But its next deadline
cannot be asked for, and it cannot be told about a slot. -/
theorem longest_timeouts_abandoned :
    (Config.ofOptions Sample.longestOptions).run = .ok (.ok Sample.longestConfig) ∧ ∃ s t,
      submit Sample.longestConfig Sample.job .willing .origin = .ok s ∧
        s.controller.nextDeadline? .origin = .error .clock ∧
        Sample.oneSlot.perform .origin s = .error (.abandoned .clock) t :=
  ⟨by decide +kernel, exists_longest⟩

/-- With the timeouts of `longestConfig`, the wait may last beyond the end of the clock, and so may
the stabilization. -/
theorem abandoned_at_clock_end_sample : ∃ s,
    submit Sample.longestConfig Sample.job .willing .origin = .ok s ∧
      s.Visits .origin (s.run []) ∧
      (s.run []).controller.settings.waitTimeout = .after Sample.longest ∧
      (s.run []).controller.WaitsBeyond ∧ (s.run []).Beyond .origin Sample.oneSlot := by
  obtain ⟨s, t, hs, hdeadline, hcall⟩ := exists_longest
  have hvisits := visits_run s [] .origin
  obtain ⟨hobeys, hcalls, hcontroller⟩ := abandoned_at_clock_end hs hvisits
  obtain ⟨hnext, -, -⟩ := hcontroller (s.run []).controller .origin .clock
  refine ⟨s, hs, hvisits, ?_, (hnext.1 hdeadline).2,
    (hcalls .origin Sample.oneSlot).1 ⟨t, hcall⟩⟩
  rw [hobeys.rescale_eq]
  rfl

end Scheduler

end AdaptiveBatch
