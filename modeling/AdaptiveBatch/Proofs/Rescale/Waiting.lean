import AdaptiveBatch.Proofs.Rescale.Coherence

/-! # Waiting for the first start

A new job waits for what its vertices desire. With enough slots it starts sooner or later, at once
or reduced to what fits; either way each vertex gets what the slots allow.

* **`RescaleController.desired`**, **`RescaleController.achievable`** — what the vertices desire, and
  what the slots allow;
* **`RescaleController.FirstLook`** — what a look at enough slots leads to. -/

namespace AdaptiveBatch.RescaleController

variable {c : RescaleController} {now since : Instant} {vertex : VertexId}
  {old : Option Stabilization}

/-- As many tasks for every vertex as it desires. -/
def desired (c : RescaleController) : ParallelismPlan := c.requirements.map fun _ r => r.desired

/-- As many tasks for every vertex as the slots allow. -/
def achievable (c : RescaleController) : ParallelismPlan :=
  c.requirements.map fun _ r => r.achievable c.view.slotCount

/-- What is `desired`, reduced to the slots, is what they allow, `achievable`. -/
theorem reduce_desired (c : RescaleController) : c.reduce c.desired = c.achievable := by
  refine Std.ExtTreeMap.ext_getElem? fun {vertex} => ?_
  unfold achievable desired
  rw [getElem?_reduce, Std.ExtTreeMap.getElem?_map, Std.ExtTreeMap.getElem?_map]
  cases c.requirements[vertex]? with
  | none => rfl
  | some r => rfl

/-- What is `desired` and fits is what the slots allow, `achievable`. -/
theorem desired_eq_achievable (h : c.Coherent) (hfits : c.desired.slots ≤ c.view.slotCount) :
    c.desired = c.achievable := by
  refine Std.ExtTreeMap.ext_getElem? fun {vertex} => ?_
  have hle (p : Nat) (hp : c.desired[vertex]? = some p) : p ≤ c.view.slotCount :=
    Nat.le_trans (ParallelismPlan.le_slots hp) hfits
  unfold achievable
  unfold desired at hle ⊢
  rw [Std.ExtTreeMap.getElem?_map] at hle ⊢
  rw [Std.ExtTreeMap.getElem?_map]
  cases hr : c.requirements[vertex]? with
  | none => rfl
  | some r =>
    rw [hr] at hle
    have hslots : r.desired ≤ c.view.slotCount := hle r.desired rfl
    exact congrArg some ((h.valid vertex r hr).achievable_of_le hslots).symm

/-- What a look leads to when a job waits for what its vertices desire and there are enough slots:
it starts with what they allow, or it waits on, unless the timer cannot be armed. -/
inductive FirstLook (c : RescaleController) (since : Instant) (old : Option Stabilization)
    (now : Instant) : Checked (RescaleAction × RescaleController) → Prop
  /-- It starts. -/
  | start (reduced : Bool) : FirstLook c since old now (.ok (c.start c.achievable reduced now))
  /-- The timer has not fired yet. -/
  | wait {timer : Stabilization} (armed : old.filter (c.view.slotCount ≤ ·.slots) = some timer)
      (early : ¬timer.deadline ≤ now) :
      FirstLook c since old now
        (.ok (.idle, { c with phase := .waiting since c.desired (some timer) }))
  /-- The timer is armed. -/
  | arm {deadline : Instant} (unarmed : old.filter (c.view.slotCount ≤ ·.slots) = none)
      (deadline_eq : now.add c.settings.stabilizationTimeout = .ok deadline) :
      FirstLook c since old now (.ok (.idle, { c with
        phase := .waiting since c.desired (some { deadline, slots := c.view.slotCount }) }))
  /-- The timer would fire after the end of the clock. -/
  | abandoned {o : Overflow} (unarmed : old.filter (c.view.slotCount ≤ ·.slots) = none)
      (deadline_eq : now.add c.settings.stabilizationTimeout = .error o) :
      FirstLook c since old now (.error o)

/-- Every look that finds enough slots for a job that waits for what it desires has one of the
outcomes of `FirstLook`. -/
theorem firstLook_evaluate (h : c.Coherent) (hphase : c.phase = .waiting since c.desired old)
    (henough : c.requiredSlots ≤ c.view.slotCount) :
    c.FirstLook since old now (c.evaluate now) := by
  have hlook : c.WaitingLook since c.desired old now (c.evaluate now) := waitingLook_evaluate hphase
  generalize c.evaluate now = outcome at hlook ⊢
  cases hlook with
  | start fits =>
    rw [desired_eq_achievable h fits]
    exact .start false
  | expire | fire =>
    rw [reduce_desired]
    exact .start true
  | giveUp _ _ short | disarm _ _ short => exact absurd henough (Nat.not_le.2 short)
  | keep _ _ _ armed early => exact .wait armed early
  | arm _ _ _ unarmed deadline_eq => exact .arm unarmed deadline_eq
  | abandoned _ _ _ unarmed deadline_eq => exact .abandoned unarmed deadline_eq

/-- What the slots allow a vertex, `c.achievable`, is at least one task. -/
theorem Coherent.ne_zero_of_achievable {p : Nat} (h : c.Coherent)
    (hp : c.achievable[vertex]? = some p) : p ≠ 0 := by
  unfold achievable at hp
  rw [Std.ExtTreeMap.getElem?_map] at hp
  obtain ⟨r, hr, rfl⟩ := Option.map_eq_some_iff.1 hp
  have hmin := (h.valid vertex r hr).one_le_min
  have hle := Requirement.min_le_achievable (h.valid vertex r hr).min_le_desired c.view.slotCount
  omega

end AdaptiveBatch.RescaleController
