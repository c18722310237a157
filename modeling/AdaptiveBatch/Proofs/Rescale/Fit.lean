import AdaptiveBatch.Proofs.Rescale.Coherence
import AdaptiveBatch.Proofs.Rescale.Runs

/-! # Every start fits

A job starts with the plan it waits for, if that takes no more slots than there are. Otherwise it starts
with a reduced plan, and only if there are as many slots as the most demanding vertex needs. Reducing
lowers the elastic vertices and leaves the others alone, so the latter have to fit as they are: they
never have more tasks than they need. This is so in every plan, as long as vertices enter the plans as the
scheduler lets them enter.

* **`Requirement.Regular`**, **`Requirement.Admits`** — the requirements of vertices, and the
  parallelisms they are tracked with;
* **`RescaleController.Drives`** — how the scheduler uses a controller;
* **`RescaleController.Plans.slots_le`** — a start takes no more slots than there are;
* **`RescaleController.starts_fit`** — the same for every run. -/

namespace AdaptiveBatch

/-! ## Requirements -/

namespace Requirement

variable {r : Requirement} {p : Nat}

/-- The requirement of a vertex with a fixed parallelism, or of one with two bounds. -/
def Regular (r : Requirement) : Prop :=
  (∃ parallelism, r = fixed parallelism) ∨ ∃ min desired, r = between min desired

/-- A requirement of one of the two kinds desires at least what it needs, `r.min ≤ r.desired`, and
if it is not elastic, no more than that. -/
theorem regular_iff : r.Regular ↔ r.min ≤ r.desired ∧ (r.elastic = false → r.desired = r.min) := by
  constructor
  · rintro (⟨parallelism, rfl⟩ | ⟨min, desired, rfl⟩)
    · exact ⟨Nat.le_refl parallelism, fun _ => rfl⟩
    · exact ⟨min_le_desired_between min desired, Bool.noConfusion⟩
  · rintro ⟨hle, hfixed⟩
    obtain ⟨min, desired, elastic⟩ := r
    cases elastic with
    | false =>
      obtain rfl : desired = min := hfixed rfl
      exact Or.inl ⟨desired, rfl⟩
    | true => exact Or.inr ⟨min, desired, by rw [between, Nat.max_eq_left hle]⟩

instance (r : Requirement) : Decidable r.Regular := decidable_of_iff _ regular_iff.symm

/-- A vertex with the requirement may run as so many tasks: at least as many as it accepts, and if it is
not elastic, exactly as many as it desires. -/
structure Admits (r : Requirement) (p : Nat) : Prop where
  /-- At least as many as it accepts. -/
  min_le : r.min ≤ p
  /-- Exactly as many as it desires. -/
  eq_desired : r.elastic = false → p = r.desired

/-- An elastic vertex may run with any parallelism from `r.min` on. -/
theorem Admits.of_elastic (helastic : r.elastic = true) (h : r.min ≤ p) : r.Admits p where
  min_le := h
  eq_desired hfixed := by rw [helastic] at hfixed; cases hfixed

instance (r : Requirement) (p : Nat) : Decidable (r.Admits p) :=
  decidable_of_iff (r.min ≤ p ∧ (r.elastic = false → p = r.desired))
    ⟨fun h => ⟨h.1, h.2⟩, fun h => ⟨h.min_le, h.eq_desired⟩⟩

/-- Whatever a controller plans, a vertex with a regular requirement `Admits` it. -/
theorem closed_admits : Closed (fun _ => Regular) Admits where
  desired _ _ hr := ⟨(regular_iff.1 hr).1, fun _ => rfl⟩
  reduced _ _ _ _ _ helastic _ := .of_elastic helastic (Nat.le_max_right _ _)
  achievable _ _ slots hr helastic :=
    .of_elastic helastic (min_le_achievable (regular_iff.1 hr).1 slots)

end Requirement

/-! ## Controllers -/

namespace RescaleController

open ParallelismPlan

variable {c c' : RescaleController} {now : Instant} {op : Operation} {action? : Option RescaleAction}
  {plan : ParallelismPlan} {reduced : Bool}

/-- The `plan` of a start takes no more slots than there are, `c.view.slotCount`. -/
theorem Plans.slots_le (h : c.Plans (fun _ => Requirement.Regular) Requirement.Admits)
    (heval : c.Evaluated now (.start plan reduced) c') : plan.slots ≤ c.view.slotCount := by
  cases heval with
  | start waiting fits => exact fits
  | @startReduced since target old waiting enough =>
    have htarget := h.aimed target (by rw [aim?, waiting])
    rw [slots_le_iff]
    intro vertex p hp
    rw [getElem?_reduce] at hp
    obtain ⟨q, hq, rfl⟩ := Option.map_eq_some_iff.1 hp
    obtain ⟨r, hr, hadmits⟩ := htarget.exists_requirement hq
    have hmin : r.min ≤ c.view.slotCount := Nat.le_trans (min_le_requiredSlots hr) enough
    rw [hr]
    show (if r.elastic = true then max (min q c.view.slotCount) r.min else q) ≤ c.view.slotCount
    split
    · exact Nat.max_le.2 ⟨Nat.min_le_right _ _, hmin⟩
    · -- A vertex that is not elastic has just the tasks that it needs.
      next hfixed =>
      have hfixed' : r.elastic = false := Bool.eq_false_iff.2 hfixed
      rw [hadmits.eq_desired hfixed', (Requirement.regular_iff.1 (h.proper vertex r hr)).2 hfixed']
      exact hmin

/-! ## Runs -/

/-- A call as the scheduler makes it. A vertex is tracked while the job runs, and only if it is not
tracked yet; its requirement is one of the two kinds, and it has started with at least as many tasks as
it accepts, or exactly as many as it requires if it is not elastic. -/
def Drives (c : RescaleController) : Operation → Prop
  | .track vertex r p => c.isExecuting = true ∧ c.requirements[vertex]? = none ∧ r.Regular ∧ r.Admits p
  | _ => True

instance (c : RescaleController) : (op : Operation) → Decidable (c.Drives op)
  | .track .. => inferInstanceAs (Decidable (_ ∧ _ ∧ _ ∧ _))
  | .resourcesChanged _ | .poll | .restarted | .untrack _ => isTrue trivial

/-- Every turn as the scheduler makes it, `c.Drives op`, keeps all plans related to the
requirements. -/
theorem Happened.plans (h : Happened c now op action? c') (hdrives : c.Drives op)
    (hc : c.Plans (fun _ => Requirement.Regular) Requirement.Admits) :
    c'.Plans (fun _ => Requirement.Regular) Requirement.Admits := by
  cases h with
  | resourcesChanged evaluated => exact (hc.withView _).evaluated Requirement.closed_admits evaluated
  | poll evaluated => exact hc.evaluated Requirement.closed_admits evaluated
  | restarted pending evaluated =>
    exact (hc.awaitRestart now).evaluated Requirement.closed_admits evaluated
  | unasked => exact hc
  | track vertex r p =>
    obtain ⟨hexecuting, hnew, hregular, hadmits⟩ := hdrives
    exact hc.track hexecuting hnew hregular hadmits
  | untrack vertex => exact hc.untrack vertex

/-- A start comes from a look at the resources of a controller `d` with sound plans, and nothing
happens after that look. -/
theorem Happened.evaluated_of_start (h : Happened c now op (some (.start plan reduced)) c')
    (hc : c.Plans (fun _ => Requirement.Regular) Requirement.Admits) :
    ∃ d : RescaleController, d.Plans (fun _ => Requirement.Regular) Requirement.Admits ∧
      d.Evaluated now (.start plan reduced) c' := by
  cases h with
  | resourcesChanged evaluated => exact ⟨_, hc.withView _, evaluated⟩
  | poll evaluated => exact ⟨c, hc, evaluated⟩
  | restarted pending evaluated => exact ⟨_, hc.awaitRestart now, evaluated⟩

/-- **Every start fits.** Whatever a controller is told, as long as vertices are tracked as the
scheduler tracks them (`Drives`): each start it returns, with the whole plan or a reduced one, is
for exactly the vertices that are tracked then, gives each of them at least the `min` of its
requirement, and takes no more slots than the view has (`plan.slots ≤ view.slotCount`). -/
theorem starts_fit (settings : RescaleConfig) (requirements : Std.ExtTreeMap VertexId Requirement)
    (start : Instant) (calls : List (Instant × Operation))
    (hregular : ∀ (vertex : VertexId) (r : Requirement), requirements[vertex]? = some r → r.Regular)
    (hdrives : ∀ t ∈ (ofRequirements settings requirements start).turns calls,
      t.before.Drives t.operation) :
    ∀ t ∈ (ofRequirements settings requirements start).turns calls, ∀ plan reduced,
      t.action = some (.start plan reduced) →
        (∀ vertex : VertexId,
          (plan[vertex]?).isSome = (t.after.requirements[vertex]?).isSome) ∧
        (∀ (vertex : VertexId) (p : Nat), plan[vertex]? = some p →
          ∃ r, t.after.requirements[vertex]? = some r ∧ r.min ≤ p ∧
            p ≤ t.after.view.slotCount) ∧
        plan.slots ≤ t.after.view.slotCount := by
  intro t ht plan reduced haction
  obtain ⟨last, hlinked⟩ := linked_turns (ofRequirements settings requirements start) calls
  have hbefore := hlinked.forall_before (fun u hu hc => u.happened.plans (hdrives u hu) hc)
    (.ofRequirements Requirement.closed_admits settings hregular) t ht
  obtain ⟨d, hd, heval⟩ := (haction ▸ t.happened).evaluated_of_start hbefore
  have hplan := hd.started Requirement.closed_admits heval
  have hslots := hd.slots_le heval
  -- The look changes neither the requirements nor the view.
  rw [← heval.frame.2.2] at hplan
  rw [← heval.frame.1] at hslots
  refine ⟨hplan.isSome_eq, ?_, hslots⟩
  intro vertex p hp
  obtain ⟨r, hr, hadmits⟩ := hplan.exists_requirement hp
  exact ⟨r, hr, hadmits.min_le, slots_le_iff.1 hslots vertex p hp⟩

/-- A source that desires four tasks. -/
def sampleSource : Std.ExtTreeMap VertexId Requirement :=
  (∅ : Std.ExtTreeMap VertexId Requirement).insert "source" (.between 1 4)

/-- The job starts late on two of the four slots, and a sink of one task starts. When the other two slots
come, the job is restarted. -/
def sampleGrowth : List (Instant × Operation) :=
  [(sampleTime 0, .resourcesChanged (sampleView 2)), (sampleTime 1000, .poll),
    (sampleTime 1001, .track "sink" (.fixed 1) 1),
    (sampleTime 2000, .resourcesChanged (sampleView 4)), (sampleTime 2001, .restarted)]

/-- Both starts of `sampleGrowth` fit, the reduced one and the one after the restart. -/
theorem starts_fit_sample : ∃ first second : Turn,
    ((ofRequirements ({} : Config).rescale sampleSource (sampleTime 0)).turns
      sampleGrowth)[1]? = some first ∧
    ((ofRequirements ({} : Config).rescale sampleSource (sampleTime 0)).turns
      sampleGrowth)[4]? = some second ∧
    first.action = some (.start (samplePlan 2) true) ∧
    second.action = some (.start ((samplePlan 4).insert "sink" 1) false) ∧
    (samplePlan 2).slots ≤ first.after.view.slotCount ∧
      ParallelismPlan.slots ((samplePlan 4).insert "sink" 1) ≤ second.after.view.slotCount := by
  have hregular : ∀ (vertex : VertexId) (r : Requirement), sampleSource[vertex]? = some r →
      r.Regular := by
    intro vertex r hr
    unfold sampleSource at hr
    rw [getElem?_insert] at hr
    split at hr
    · cases hr
      exact Or.inr ⟨1, 4, rfl⟩
    · simp at hr
  have hdrives : ∀ t ∈ (ofRequirements ({} : Config).rescale sampleSource (sampleTime 0)).turns
      sampleGrowth, t.before.Drives t.operation := by
    decide +kernel
  have hactions : ((ofRequirements ({} : Config).rescale sampleSource (sampleTime 0)).turns
      sampleGrowth).map (·.action) = [some .idle, some (.start (samplePlan 2) true), none,
        some (.scale { plan := samplePlan 4, reason := .increase, issuedAt := sampleTime 2000 }),
        some (.start ((samplePlan 4).insert "sink" 1) false)] := by
    decide +kernel
  have hfits := starts_fit ({} : Config).rescale sampleSource (sampleTime 0) sampleGrowth hregular
    hdrives
  generalize (ofRequirements ({} : Config).rescale sampleSource (sampleTime 0)).turns
    sampleGrowth = ts at hactions hfits
  obtain ⟨t₀, ts, rfl, -, hactions⟩ := List.map_eq_cons_iff.1 hactions
  obtain ⟨t₁, ts, rfl, h₁, hactions⟩ := List.map_eq_cons_iff.1 hactions
  obtain ⟨t₂, ts, rfl, -, hactions⟩ := List.map_eq_cons_iff.1 hactions
  obtain ⟨t₃, ts, rfl, -, hactions⟩ := List.map_eq_cons_iff.1 hactions
  obtain ⟨t₄, ts, rfl, h₄, -⟩ := List.map_eq_cons_iff.1 hactions
  exact ⟨t₁, t₄, rfl, rfl, h₁, h₄, (hfits t₁ (by simp) _ _ h₁).2.2,
    (hfits t₄ (by simp) _ _ h₄).2.2⟩

end RescaleController

end AdaptiveBatch
