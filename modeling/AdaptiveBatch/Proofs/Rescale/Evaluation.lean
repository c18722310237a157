import AdaptiveBatch.Rescale.Controller

/-! # What a look at the resources can lead to

One look waits on, starts the job with its whole plan or with a reduced one, asks for a restart, or
gives up.

* **`RescaleController.Evaluated`** — these outcomes with what must hold for each of them; every look has
  one of them (**`RescaleController.evaluate_eq_ok`**);
* **`RescaleController.WaitingLook`** — the same for a job that waits, with all that such a look has seen
  and what it does to the timer. -/

namespace AdaptiveBatch.RescaleController

variable {c c' : RescaleController} {now : Instant} {action : RescaleAction}

/-- What a look may decide, and the controller after it. -/
inductive Evaluated (c : RescaleController) (now : Instant) :
    RescaleAction → RescaleController → Prop
  /-- Nothing. -/
  | idle : Evaluated c now .idle c
  /-- The job waits on, with another timer. -/
  | wait {since : Instant} {target : ParallelismPlan} {old timer : Option Stabilization}
      (waiting : c.phase = .waiting since target old) :
      Evaluated c now .idle { c with phase := .waiting since target timer }
  /-- The job starts with the plan it waits for. -/
  | start {since : Instant} {target : ParallelismPlan} {old : Option Stabilization}
      (waiting : c.phase = .waiting since target old) (fits : target.slots ≤ c.view.slotCount) :
      Evaluated c now (.start target false)
        { c with phase := .running now, current := target, runningView := c.view }
  /-- The job starts with a plan that is reduced to the slots. -/
  | startReduced {since : Instant} {target : ParallelismPlan} {old : Option Stabilization}
      (waiting : c.phase = .waiting since target old)
      (enough : c.requiredSlots ≤ c.view.slotCount) :
      Evaluated c now (.start (c.reduce target) true)
        { c with phase := .running now, current := c.reduce target, runningView := c.view }
  /-- The slots do not suffice. -/
  | insufficient {since : Instant} {target : ParallelismPlan} {old : Option Stabilization}
      (waiting : c.phase = .waiting since target old)
      (short : c.view.slotCount < c.requiredSlots) :
      Evaluated c now (.insufficient c.view.slotCount c.requiredSlots)
        { c with phase := .failed c.view.slotCount c.requiredSlots }
  /-- A restart is asked for. -/
  | scale {since : Instant} {reason : ScaleReason} (running : c.phase = .running since)
      (changes : c.changes.isEmpty = false)
      (due : if reason = .forced then c.isForced since now = true
        else c.intervalHasPassed now = true) :
      Evaluated c now (.scale { plan := c.changes, reason, issuedAt := now })
        { c with
          phase := .evaluating { plan := c.changes, reason, issuedAt := now }
          lastDecision := some { plan := c.changes, decidedAt := now, view := c.view } }

/-! ## Looks of a job that waits -/

variable {since : Instant} {target : ParallelismPlan} {old : Option Stabilization}

/-- What a look of a job that waits leads to, and what it must have seen. The timer counts as armed only if
the slots have not grown beyond those it was armed at. -/
inductive WaitingLook (c : RescaleController) (since : Instant) (target : ParallelismPlan)
    (old : Option Stabilization) (now : Instant) :
    Checked (RescaleAction × RescaleController) → Prop
  /-- The whole plan fits. -/
  | start (fits : target.slots ≤ c.view.slotCount) :
      WaitingLook c since target old now (.ok (c.start target false now))
  /-- The waiting time is over, and something can run. -/
  | expire (tight : c.view.slotCount < target.slots) (expired : c.waitIsOver since now = true)
      (enough : c.requiredSlots ≤ c.view.slotCount) :
      WaitingLook c since target old now (.ok (c.start (c.reduce target) true now))
  /-- The waiting time is over, and nothing can run. -/
  | giveUp (tight : c.view.slotCount < target.slots) (expired : c.waitIsOver since now = true)
      (short : c.view.slotCount < c.requiredSlots) :
      WaitingLook c since target old now (.ok c.giveUp)
  /-- Nothing can run yet. -/
  | disarm (tight : c.view.slotCount < target.slots) (inTime : c.waitIsOver since now = false)
      (short : c.view.slotCount < c.requiredSlots) :
      WaitingLook c since target old now (.ok (.idle, { c with phase := .waiting since target none }))
  /-- The timer has fired. -/
  | fire {timer : Stabilization} (tight : c.view.slotCount < target.slots)
      (inTime : c.waitIsOver since now = false) (enough : c.requiredSlots ≤ c.view.slotCount)
      (armed : old.filter (c.view.slotCount ≤ ·.slots) = some timer) (due : timer.deadline ≤ now) :
      WaitingLook c since target old now (.ok (c.start (c.reduce target) true now))
  /-- The timer has not fired yet. -/
  | keep {timer : Stabilization} (tight : c.view.slotCount < target.slots)
      (inTime : c.waitIsOver since now = false) (enough : c.requiredSlots ≤ c.view.slotCount)
      (armed : old.filter (c.view.slotCount ≤ ·.slots) = some timer)
      (early : ¬timer.deadline ≤ now) :
      WaitingLook c since target old now
        (.ok (.idle, { c with phase := .waiting since target (some timer) }))
  /-- The timer is armed. -/
  | arm {deadline : Instant} (tight : c.view.slotCount < target.slots)
      (inTime : c.waitIsOver since now = false) (enough : c.requiredSlots ≤ c.view.slotCount)
      (unarmed : old.filter (c.view.slotCount ≤ ·.slots) = none)
      (deadline_eq : now.add c.settings.stabilizationTimeout = .ok deadline) :
      WaitingLook c since target old now (.ok (.idle, { c with
        phase := .waiting since target (some { deadline, slots := c.view.slotCount }) }))
  /-- The timer would fire after the end of the clock. -/
  | abandoned {o : Overflow} (tight : c.view.slotCount < target.slots)
      (inTime : c.waitIsOver since now = false) (enough : c.requiredSlots ≤ c.view.slotCount)
      (unarmed : old.filter (c.view.slotCount ≤ ·.slots) = none)
      (deadline_eq : now.add c.settings.stabilizationTimeout = .error o) :
      WaitingLook c since target old now (.error o)

/-- A job that waits, can run in part and whose waiting time is not over looks at its timer:
`c.stabilize` has one of the outcomes. -/
theorem waitingLook_stabilize (tight : c.view.slotCount < target.slots)
    (inTime : c.waitIsOver since now = false) (enough : c.requiredSlots ≤ c.view.slotCount) :
    c.WaitingLook since target old now (c.stabilize since target old now) := by
  unfold stabilize
  cases htimer : old.filter (c.view.slotCount ≤ ·.slots) with
  | some timer =>
    simp only []
    split
    · next hdue => exact .fire tight inTime enough htimer hdue
    · next hearly => exact .keep tight inTime enough htimer hearly
  | none =>
    cases hdeadline : now.add c.settings.stabilizationTimeout with
    | error o => exact .abandoned tight inTime enough htimer hdeadline
    | ok deadline => exact .arm tight inTime enough htimer hdeadline

/-- Every look of a job that waits has one of the outcomes of `WaitingLook`. -/
theorem waitingLook_evaluate (hphase : c.phase = .waiting since target old) :
    c.WaitingLook since target old now (c.evaluate now) := by
  unfold evaluate
  rw [hphase]
  show c.WaitingLook since target old now (c.evaluateWaiting since target old now)
  unfold evaluateWaiting
  split
  · next hfits => exact .start hfits
  · next htight =>
    have tight : c.view.slotCount < target.slots := Nat.lt_of_not_le htight
    split
    · next hover =>
      split
      · next henough => exact .expire tight hover henough
      · next hshort => exact .giveUp tight hover (Nat.lt_of_not_le hshort)
    · next hinTime =>
      have inTime : c.waitIsOver since now = false := Bool.eq_false_iff.2 hinTime
      split
      · next hshort => exact .disarm tight inTime hshort
      · next henough => exact waitingLook_stabilize tight inTime (Nat.le_of_not_lt henough)

/-! ## All looks -/

/-- The outcomes of a job that waits are among those of all jobs, `Evaluated`. -/
theorem WaitingLook.evaluated (h : c.WaitingLook since target old now (.ok (action, c')))
    (hphase : c.phase = .waiting since target old) : c.Evaluated now action c' := by
  cases h with
  | start fits => exact .start hphase fits
  | expire _ _ enough | fire _ _ enough => exact .startReduced hphase enough
  | giveUp _ _ short => exact .insufficient hphase short
  | disarm | keep | arm => exact .wait hphase

/-- A look of a job that runs has one of the outcomes of `Evaluated`. -/
theorem evaluated_evaluateRunning (hphase : c.phase = .running since)
    (h : c.evaluateRunning since now = (action, c')) : c.Evaluated now action c' := by
  unfold evaluateRunning at h
  cases hchanges : c.changes.isEmpty with
  | true => simp only [hchanges, if_true] at h; cases h; exact .idle
  | false =>
    simp only [hchanges, Bool.false_eq_true, if_false] at h
    split at h
    · next hdue =>
      have hinterval := (Bool.and_eq_true _ _ ▸ hdue).2
      split at h
      · cases h; exact .scale hphase hchanges hinterval
      · cases h; exact .scale hphase hchanges hinterval
    · split at h
      · next hforced => cases h; exact .scale hphase hchanges hforced
      · cases h; exact .idle

/-- Every look that is not abandoned has one of the outcomes of `Evaluated`. -/
theorem evaluate_eq_ok (h : c.evaluate now = .ok (action, c')) : c.Evaluated now action c' := by
  cases hphase : c.phase with
  | waiting since target old =>
    have hlook : c.WaitingLook since target old now (c.evaluate now) := waitingLook_evaluate hphase
    rw [h] at hlook
    exact hlook.evaluated hphase
  | running since =>
    unfold evaluate at h
    rw [hphase] at h
    exact evaluated_evaluateRunning hphase (Except.ok.inj h)
  | evaluating request | failed available required =>
    unfold evaluate at h
    rw [hphase] at h
    cases h
    exact .idle

/-- Only a job that has waited before waits after a look, and it waits `since` the same time for the
same `target`. -/
theorem Evaluated.waiting_before {timer : Option Stabilization} (h : c.Evaluated now action c')
    (hphase : c'.phase = .waiting since target timer) :
    ∃ old, c.phase = .waiting since target old := by
  cases h with
  | idle => exact ⟨timer, hphase⟩
  | wait waiting => cases hphase; exact ⟨_, waiting⟩
  | start | startReduced | insufficient | scale => cases hphase

/-- Only a job that waits decides to `.start`. -/
theorem Evaluated.waiting_of_start {plan : ParallelismPlan} {reduced : Bool}
    (h : c.Evaluated now (.start plan reduced) c') :
    ∃ since target old, c.phase = .waiting since target old := by
  cases h with
  | start waiting | startReduced waiting => exact ⟨_, _, _, waiting⟩

/-- An idle look of a job that does not wait changes nothing: `c' = c`. -/
theorem Evaluated.eq_of_idle (h : c.Evaluated now .idle c')
    (hnot : ∀ since target timer, c.phase ≠ .waiting since target timer) : c' = c := by
  cases h with
  | idle => rfl
  | wait waiting => exact absurd waiting (hnot _ _ _)

/-- A look changes neither the `view` nor the `settings` nor the `requirements`. -/
theorem Evaluated.frame (h : c.Evaluated now action c') :
    c'.view = c.view ∧ c'.settings = c.settings ∧ c'.requirements = c.requirements := by
  cases h <;> exact ⟨rfl, rfl, rfl⟩

/-! ## The failed phase -/

/-- Only a look that decides `.insufficient` gives up; after any other the job has failed only if it
had before. -/
theorem Evaluated.phase_of_failed (h : c.Evaluated now action c')
    (hsuffice : ∀ available required, action ≠ .insufficient available required)
    {available required : Nat} (hphase : c'.phase = .failed available required) :
    c.phase = .failed available required := by
  cases h with
  | idle => exact hphase
  | insufficient => exact absurd rfl (hsuffice _ _)
  | wait | start | startReduced | scale => cases hphase

/-- A job that has failed after a vertex was untracked had failed before, for the same reason. -/
theorem phase_of_failed_untrack {vertex : VertexId} {available required : Nat}
    (h : (c.untrack vertex).phase = .failed available required) :
    c.phase = .failed available required := by
  unfold untrack at h
  cases hphase : c.phase with
  | failed a r => rw [hphase] at h; exact h
  | waiting | running | evaluating => rw [hphase] at h; cases h

/-- A job that has failed after a restart was awaited had failed before, for the same reason. -/
theorem phase_of_failed_awaitRestart {available required : Nat}
    (h : (c.awaitRestart now).phase = .failed available required) :
    c.phase = .failed available required := by
  unfold awaitRestart at h
  cases hphase : c.phase with
  | evaluating request => simp only [hphase] at h; cases h
  | waiting | running | failed => simp only [hphase] at h; exact h

end AdaptiveBatch.RescaleController
