import AdaptiveBatch.Proofs.Rescale.Coherence
import AdaptiveBatch.Proofs.Scheduler.Deployments

/-! # The size of a vertex that has just started

The size that a vertex starts with is decided by the rule that applied and lowered to the slots of
the view; the size that a restart would give it is computed from what it requires. Both are the same
size for the same inputs and slots. So the controller, which restarts the vertices whose size is not
the achievable one, leaves out a vertex that has just started.

* **`RescaleController.changes_track`** — the changes once a vertex is tracked with a size;
* **`Sizing.decideWithin_eq_achievable_and_changes_eq`** — the first size is the achievable one, and
  is nothing to change;
* **`Scheduler.changes_started`** — starting a vertex gives the controller no more to change. -/

namespace AdaptiveBatch

/-- With a tracked vertex the `changes` speak about it where the slots allow another size than `p`,
and are as before about all others. -/
theorem RescaleController.changes_track (c : RescaleController) (vertex : VertexId)
    (r : Requirement) (p : Nat) : (c.track vertex r p).changes =
      if r.elastic = true ∧ r.achievable c.view.slotCount ≠ p then
        c.changes.insert vertex (r.achievable c.view.slotCount)
      else c.changes.erase vertex := by
  refine Std.ExtTreeMap.ext_getElem? fun {other} => ?_
  have hrequired : (c.track vertex r p).requirements[other]? =
      if vertex = other then some r else c.requirements[other]? :=
    ParallelismPlan.getElem?_insert _ _ _ _
  have hcurrent : (c.track vertex r p).current[other]? =
      if vertex = other then some p else c.current[other]? :=
    ParallelismPlan.getElem?_insert _ _ _ _
  have hview : (c.track vertex r p).view = c.view := rfl
  by_cases heq : vertex = other
  · rw [if_pos heq] at hrequired hcurrent
    refine Option.ext fun q => ?_
    rw [getElem?_changes_eq_some_iff, hrequired, hcurrent, hview]
    split
    · next h =>
      rw [ParallelismPlan.getElem?_insert, if_pos heq]
      constructor
      · rintro ⟨_, _, ⟨⟩, ⟨⟩, -, rfl, -⟩
        rfl
      · rintro ⟨⟩
        exact ⟨r, p, rfl, rfl, h.1, rfl, h.2⟩
    · next h =>
      rw [ParallelismPlan.getElem?_erase, if_pos heq]
      constructor
      · rintro ⟨_, _, ⟨⟩, ⟨⟩, helastic, rfl, hne⟩
        exact absurd ⟨helastic, hne⟩ h
      · intro hnone
        cases hnone
  · rw [if_neg heq] at hrequired hcurrent
    have hother : (c.track vertex r p).changes[other]? = c.changes[other]? := by
      refine Option.ext fun q => ?_
      rw [getElem?_changes_eq_some_iff, getElem?_changes_eq_some_iff, hrequired, hcurrent, hview]
    rw [hother]
    split
    · rw [ParallelismPlan.getElem?_insert, if_neg heq]
    · rw [ParallelismPlan.getElem?_erase, if_neg heq]

/-- A vertex that is tracked with the size `r.achievable` is nothing to change. -/
theorem RescaleController.changes_track_achievable (c : RescaleController) (vertex : VertexId)
    (r : Requirement) :
    (c.track vertex r (r.achievable c.view.slotCount)).changes = c.changes.erase vertex := by
  rw [changes_track, if_neg fun h => h.2 rfl]

/-- Under every rule that can decide, whether the vertex is elastic or not and whatever is known
about its inputs, the first size (`decideWithin`) is the one that its requirement allows for the
slots (`achievable`); and a controller that tracks the vertex with the first size on its own slots
finds nothing to change about it, and nothing new about the others (`changes`). -/
theorem Sizing.decideWithin_eq_achievable_and_changes_eq (sizing : Sizing) (v : JobVertex)
    (inputs : List InputStatistics) (view : ResourceView) :
    sizing.decideWithin v inputs (some view) =
        (sizing.requirement v inputs).achievable view.slotCount ∧
      ∀ c : RescaleController,
        (c.track v.id (sizing.requirement v inputs)
          (sizing.decideWithin v inputs (some c.view))).changes = c.changes.erase v.id := by
  refine ⟨decideWithin_eq_achievable sizing v inputs view, ?_⟩
  intro c
  rw [decideWithin_eq_achievable]
  exact c.changes_track_achievable v.id _

/-- A vertex that has just started is nothing to change, and nothing else has become so: `changes`
has lost `id` only. -/
theorem Scheduler.changes_started (s : Scheduler) (v : JobVertex) (inputs : List InputStatistics)
    (id : VertexId) (now : Instant) :
    (s.started v inputs id now).controller.changes = s.controller.changes.erase id := by
  show (s.controller.track id (s.sizing.requirement v inputs)
    (s.sizing.decideWithin v inputs (some s.view))).changes = _
  rw [Sizing.decideWithin_eq_achievable]
  exact s.controller.changes_track_achievable id _

end AdaptiveBatch
