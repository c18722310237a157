import AdaptiveBatch.Proofs.Rescale.Coherence

/-! # Plans that need no further change

A number of slots allows every elastic vertex one parallelism. The controller is stable at that number
when it runs with these parallelisms, or is to run with a plan that gives them once it is reduced to
the slots. As long as the number of slots stays, a stable controller asks for no restart and remains
stable; and any restart that it asks for makes it stable.

* **`Requirement.Exact`**, **`Requirement.Settled`** — one vertex, before and after a reduction;
* **`RescaleController.Stable`** — the invariant;
* **`RescaleController.Stable.not_scale`**, **`RescaleController.stable_of_scale`** — no restart is
  asked for, and what a restart leads to. -/

namespace AdaptiveBatch

/-! ## Vertices -/

namespace Requirement

variable {r : Requirement} {p n : Nat}

/-- An elastic vertex is as large as so many slots allow. -/
def Exact (n : Nat) (r : Requirement) (p : Nat) : Prop :=
  r.elastic = true → p = r.achievable n

/-- Reduced to so many slots, an elastic vertex is as large as they allow. -/
def Settled (n : Nat) (r : Requirement) (p : Nat) : Prop :=
  r.elastic = true → max (Min.min p n) r.min = r.achievable n

/-- What the slots allow is not reduced: `Exact n` implies `Settled n`. -/
theorem Exact.settled (h : r.Exact n p) : r.Settled n p := by
  intro helastic
  rw [h helastic]
  unfold achievable
  rw [if_pos helastic]
  omega

/-- What the vertex desires is reduced to what the slots allow, whatever their number `n`. -/
theorem settled_desired : r.Settled n r.desired := by
  intro helastic
  unfold achievable
  rw [if_pos helastic]

/-- A plan that fits, `p ≤ n`, needs no reduction. -/
theorem Settled.exact (h : r.Settled n p) (haccepts : r.Accepts p) (hle : p ≤ n) : r.Exact n p := by
  intro helastic
  rw [← h helastic]
  unfold Accepts at haccepts
  omega

/-- What is left of a `Settled` vertex once it is reduced to `n` slots is `Exact`. -/
theorem Settled.exact_reduced (h : r.Settled n p) :
    r.Exact n (if r.elastic then max (Min.min p n) r.min else p) := by
  intro helastic
  rw [if_pos helastic]
  exact h helastic

end Requirement

/-! ## Controllers -/

namespace RescaleController

open ParallelismPlan

variable {c c' : RescaleController} {now : Instant} {action : RescaleAction} {vertex : VertexId}
  {request : ScaleRequest} {n : Nat}

/-- With so many slots, the controller has nothing to change. -/
structure Stable (n : Nat) (c : RescaleController) : Prop where
  /-- The plan that is aimed at, once it is reduced. -/
  aimed : ∀ plan, c.aim? = some plan → plan.Suits (Requirement.Settled n) c.requirements
  /-- The plan that the job runs with. -/
  running : ∀ since, c.phase = .running since →
    c.current.Suits (Requirement.Exact n) c.requirements

/-- A plan that is as large as the slots allow is so also once it is reduced. -/
theorem Suits.settled {plan : ParallelismPlan} {requirements : Std.ExtTreeMap VertexId Requirement}
    (h : plan.Suits (Requirement.Exact n) requirements) :
    plan.Suits (Requirement.Settled n) requirements :=
  h.imp fun _ _ _ _ _ hexact => hexact.settled

/-- A new job, which waits for what its vertices desire, is stable at any number `n` of slots. -/
theorem Stable.ofRequirements (settings : RescaleConfig)
    (requirements : Std.ExtTreeMap VertexId Requirement) (n : Nat) :
    (ofRequirements settings requirements now).Stable n := by
  constructor
  · intro plan haim vertex
    cases haim
    show Option.Rel _ requirements[vertex]? _
    rw [Std.ExtTreeMap.getElem?_map]
    cases requirements[vertex]? with
    | none => exact .none
    | some r => exact .some Requirement.settled_desired
  · intro since hphase
    cases hphase

/-- Being stable at `n` slots does not depend on the `view`. -/
theorem Stable.withView (h : c.Stable n) (view : ResourceView) :
    ({ c with view } : RescaleController).Stable n :=
  ⟨h.aimed, h.running⟩

/-! ### Vertices -/

/-- A vertex that starts as large as `n` slots allow, `r.Exact n p`, keeps the controller stable. -/
theorem Stable.track (h : c.Stable n) (hc : c.Coherent) (hexecuting : c.isExecuting = true)
    (hnew : c.requirements[vertex]? = none) {r : Requirement} {p : Nat} (hexact : r.Exact n p) :
    (c.track vertex r p).Stable n := by
  constructor
  · intro plan haim
    rw [(coherent_iff.1 hc).aim?_track hexecuting hnew] at haim
    obtain ⟨old, hold, rfl⟩ := Option.map_eq_some_iff.1 haim
    exact (h.aimed old hold).insert hexact.settled
  · intro since hphase
    exact (h.running since hphase).insert hexact

/-- Untracking a vertex keeps the controller stable. -/
theorem Stable.untrack (h : c.Stable n) (vertex : VertexId) : (c.untrack vertex).Stable n := by
  constructor
  · intro plan haim
    rw [aim?_untrack] at haim
    obtain ⟨old, hold, rfl⟩ := Option.map_eq_some_iff.1 haim
    exact (h.aimed old hold).erase vertex
  · intro since hphase
    have hrunning : c.phase = .running since := by
      unfold RescaleController.untrack at hphase
      cases hold : c.phase with
      | running since' => rw [hold] at hphase; exact hphase
      | waiting | evaluating | failed => rw [hold] at hphase; cases hphase
    exact (h.running since hrunning).erase vertex

/-- Waiting for a restart keeps the controller stable. -/
theorem Stable.awaitRestart (h : c.Stable n) (now : Instant) : (c.awaitRestart now).Stable n := by
  constructor
  · rw [requirements_awaitRestart, aim?_awaitRestart]
    exact h.aimed
  · intro since hphase
    have hexecuting : (c.awaitRestart now).isExecuting = true := by rw [isExecuting, hphase]
    rw [(isExecuting_of_awaitRestart hexecuting).2] at hphase ⊢
    exact h.running since hphase

/-! ### Looks at the resources -/

/-- A restart that is asked for gives every elastic vertex what the slots allow, so from then on the
controller is stable at `c.view.slotCount`. -/
theorem stable_of_scale (hc : c.Coherent) (h : c.Evaluated now (.scale request) c') :
    c'.Stable c.view.slotCount := by
  cases h with
  | scale running changes due =>
    have hcurrent : c.current.Suits Requirement.Accepts c.requirements :=
      hc.current (by rw [isExecuting, running])
    constructor
    · intro plan haim
      cases haim
      apply hcurrent.override
      · intro vertex p hp
        obtain ⟨r, q, hr, -, -, rfl, -⟩ := getElem?_changes_eq_some_iff.1 hp
        exact ⟨r, hr, Requirement.Exact.settled fun _ => rfl⟩
      · -- A vertex without a change is as large as the slots allow.
        intro vertex r p hr hp hnone _
        apply Requirement.Exact.settled
        intro helastic
        by_cases heq : p = r.achievable c.view.slotCount
        · exact heq
        · have hchange : c.changes[vertex]? = some (r.achievable c.view.slotCount) :=
            getElem?_changes_eq_some_iff.2 ⟨r, p, hr, hp, helastic, rfl, fun h => heq h.symm⟩
          cases hnone.symm.trans hchange
    · intro since hphase
      cases hphase

/-- A controller that is stable at its own number of slots asks for no restart. -/
theorem Stable.not_scale (h : c.Stable c.view.slotCount) :
    ¬c.Evaluated now (.scale request) c' := by
  intro heval
  cases heval with
  | scale running changes due =>
    have hnone (vertex : VertexId) : c.changes[vertex]? = none := by
      rw [Option.eq_none_iff_forall_ne_some]
      intro p hp
      obtain ⟨r, q, hr, hq, helastic, rfl, hne⟩ := getElem?_changes_eq_some_iff.1 hp
      exact hne ((h.running _ running).rel hr hq helastic).symm
    have hempty : c.changes = ∅ := Std.ExtTreeMap.ext_getElem? fun {vertex} => by
      rw [hnone vertex]
      simp
    rw [hempty] at changes
    cases changes

/-- A controller that is stable at its own number of slots remains so, whatever a look decides. -/
theorem Stable.evaluated (h : c.Stable c.view.slotCount) (hc : c.Coherent)
    (heval : c.Evaluated now action c') : c'.Stable c.view.slotCount := by
  have hwaiting {since : Instant} {target : ParallelismPlan} {old : Option Stabilization}
      (hphase : c.phase = .waiting since target old) :
      target.Suits (Requirement.Settled c.view.slotCount) c.requirements :=
    h.aimed target (by rw [aim?, hphase])
  cases heval with
  | idle => exact h
  | wait waiting =>
    constructor
    · intro plan haim
      cases haim
      exact hwaiting waiting
    · intro since hphase
      cases hphase
  | @start since target old waiting fits =>
    have htarget := hc.aimed target (by rw [aim?, waiting])
    have hexact : target.Suits (Requirement.Exact c.view.slotCount) c.requirements := by
      apply (hwaiting waiting).imp
      intro vertex r p hr hp hsettled
      -- The whole plan fits, so no vertex has more tasks than there are slots.
      have hle : p ≤ c.view.slotCount := Nat.le_trans (le_slots hp) fits
      exact hsettled.exact (htarget.rel hr hp) hle
    constructor
    · intro plan haim
      cases haim
      exact Suits.settled hexact
    · intro _ _
      exact hexact
  | startReduced waiting enough =>
    have hexact : (c.reduce _).Suits (Requirement.Exact c.view.slotCount) c.requirements :=
      suits_reduce (hwaiting waiting) fun _ _ _ _ hsettled => hsettled.exact_reduced
    constructor
    · intro plan haim
      cases haim
      exact Suits.settled hexact
    · intro _ _
      exact hexact
  | insufficient waiting short =>
    constructor
    · intro plan haim
      cases haim
    · intro since hphase
      cases hphase
  | scale running changes due => exact absurd (.scale running changes due) h.not_scale

/-- Without slots, `c.view.slotCount = 0`, a job that does not run and has something to run does not
start. -/
theorem Evaluated.not_starts (h : c.Evaluated now action c') (hc : c.Coherent)
    (hidle : c.isExecuting = false) (hslots : c.view.slotCount = 0) {r : Requirement}
    (hr : c.requirements[vertex]? = some r) :
    action.plan = ∅ ∧ c'.isExecuting = false ∧ (c.Stable n → c'.Stable n) := by
  have hpos : 1 ≤ r.min := (hc.valid vertex r hr).one_le_min
  cases h with
  | idle => exact ⟨rfl, hidle, id⟩
  | wait waiting =>
    refine ⟨rfl, rfl, ?_⟩
    intro h
    constructor
    · intro plan haim
      cases haim
      exact h.aimed _ (by rw [aim?, waiting])
    · intro since hphase
      cases hphase
  | @start since target old waiting fits =>
    -- The plan takes at least the slot of this vertex.
    have htarget := hc.aimed target (by rw [aim?, waiting])
    obtain ⟨p, hp, haccepts⟩ := htarget.exists_planned hr
    have hle : p ≤ target.slots := le_slots hp
    have hmin : r.min ≤ p := haccepts
    omega
  | startReduced waiting enough =>
    -- So does a reduced one.
    have hle := min_le_requiredSlots hr
    omega
  | insufficient waiting short =>
    refine ⟨rfl, rfl, ?_⟩
    intro _
    constructor
    · intro plan haim
      cases haim
    · intro since hphase
      cases hphase
  | scale running changes due => rw [isExecuting, running] at hidle; cases hidle

end RescaleController

end AdaptiveBatch
