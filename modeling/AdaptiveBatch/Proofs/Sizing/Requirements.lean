import AdaptiveBatch.Rescale.Requirement

/-! # Requirements of admitted vertices

The bounds of a vertex are checked when its job is submitted. So what it requires is at least one
task, and at most what it desires. And the size it starts with is what its requirement allows for
the slots, whether the size is decided for the first time or looked at again later.

* **`Requirement.Valid`**, **`Sizing.requirement_valid`** — requirements of admitted vertices;
* **`Sizing.contains_decide`**, **`Sizing.requirement_within_bounds`** — what is decided lies within the
  bounds;
* **`Sizing.decideWithin_of_not_elastic`** — a vertex that is not elastic is always as large;
* **`Sizing.decideWithin_eq_achievable`** — the first decision is the achievable parallelism. -/

namespace AdaptiveBatch

/-- A vertex runs as at least one task, and desires at least as many as it accepts. -/
structure Requirement.Valid (r : Requirement) : Prop where
  /-- At least one task. -/
  one_le_min : 1 ≤ r.min
  /-- It accepts what it desires. -/
  min_le_desired : r.min ≤ r.desired

/-- What a vertex desires is what enough slots allow: `r.achievable slots = r.desired` from
`r.desired` slots on. -/
theorem Requirement.Valid.achievable_of_le {r : Requirement} {slots : Nat} (h : r.Valid)
    (hle : r.desired ≤ slots) : r.achievable slots = r.desired := by
  have hmin := h.min_le_desired
  unfold achievable
  split
  · omega
  · rfl

namespace Sizing

variable {s : Sizing} {v : JobVertex}

/-- A vertex is accepted iff its bounds are not empty and allow no parallelism of `0`, and contain
the one that the user has set. -/
theorem validateVertex_eq_ok_iff : s.validateVertex v = .ok () ↔
    (s.bounds v).min ≠ 0 ∧ (s.bounds v).min ≤ (s.bounds v).max ∧
      ∀ p, v.parallelism = some p → (s.bounds v).contains p = true := by
  unfold validateVertex
  simp only []
  split
  · next h => simp [h]
  · next h =>
    split
    · next h' => simp [Nat.not_le.2 h']
    · next h' =>
      cases v.parallelism with
      | none => simp [h, Nat.le_of_not_lt h']
      | some p => by_cases hp : (s.bounds v).contains p <;> simp [h, Nat.le_of_not_lt h', hp]

/-- Whatever is decided for an admitted vertex lies within its bounds, `s.bounds v`. -/
theorem contains_decide (h : s.validateVertex v = .ok ()) (inputs : List InputStatistics) :
    (s.bounds v).contains (s.decide v inputs).parallelism = true := by
  obtain ⟨-, hle, hfixed⟩ := validateVertex_eq_ok_iff.1 h
  unfold decide
  cases hp : v.parallelism with
  | some p => exact hfixed p hp
  | none =>
    -- Each of the other rules moves its target into the bounds.
    simp only []
    split
    · exact Bounds.contains_clamp hle _
    · split
      · exact Bounds.contains_clamp hle _
      · split <;> exact Bounds.contains_clamp hle _

/-- An admitted vertex has a `Valid` requirement, whatever is known about its inputs. -/
theorem requirement_valid (h : s.validateVertex v = .ok ()) (inputs : List InputStatistics) :
    (s.requirement v inputs).Valid := by
  have hmin : 1 ≤ (s.bounds v).min := Nat.pos_of_ne_zero (validateVertex_eq_ok_iff.1 h).1
  unfold requirement
  cases helastic : s.isElastic v with
  | true => exact ⟨hmin, Requirement.min_le_desired_between _ _⟩
  | false =>
    -- The lower bound and the desired size are the size that was decided.
    have hle := (Bounds.contains_iff.1 (contains_decide h inputs)).1
    exact ⟨Nat.le_trans hmin hle, Nat.le_refl _⟩

/-- What an admitted vertex accepts, `min`, and what it desires, `desired`, lie within its
bounds. -/
theorem requirement_within_bounds (h : s.validateVertex v = .ok ()) (inputs : List InputStatistics) :
    (s.bounds v).min ≤ (s.requirement v inputs).min ∧
      (s.requirement v inputs).desired ≤ (s.bounds v).max := by
  obtain ⟨hmin, hmax⟩ := Bounds.contains_iff.1 (contains_decide h inputs)
  unfold requirement
  cases s.isElastic v with
  | true => exact ⟨Nat.le_refl _, Nat.max_le.2 ⟨hmax, Nat.le_trans hmin hmax⟩⟩
  | false => exact ⟨hmin, hmax⟩

/-- The requirement of a vertex is elastic iff the vertex is. -/
theorem elastic_requirement (inputs : List InputStatistics) :
    (s.requirement v inputs).elastic = s.isElastic v := by
  unfold requirement
  cases s.isElastic v <;> rfl

/-- The parallelism of a vertex that is not elastic: the one that the user set, or the default of the
job within the bounds. -/
def staticParallelism (s : Sizing) (v : JobVertex) : Nat :=
  v.parallelism.getD ((s.bounds v).clamp s.defaultParallelism)

/-- Neither the inputs nor the slots matter for a vertex that is not elastic: the decision is
`staticParallelism`. -/
theorem decide_of_not_elastic (helastic : s.isElastic v = false) (inputs : List InputStatistics) :
    (s.decide v inputs).parallelism = s.staticParallelism v := by
  unfold decide staticParallelism
  cases hp : v.parallelism with
  | some p => rfl
  | none =>
    have henabled : s.auto.enabled = false := by simpa [isElastic, hp] using helastic
    simp only [henabled, Bool.not_false, if_true, Option.getD_none]

/-- The rule that decides is a static one exactly for vertices that are not elastic. -/
theorem isStatic_decide (inputs : List InputStatistics) :
    (s.decide v inputs).reason.isStatic = !s.isElastic v := by
  unfold decide isElastic
  cases hp : v.parallelism with
  | some p => rfl
  | none =>
    cases henabled : s.auto.enabled with
    | false => rfl
    | true =>
      simp only [Bool.not_true, Bool.false_eq_true, if_false, Option.isNone_none, Bool.and_true]
      split
      · unfold sourceTarget
        cases s.auto.defaultSourceParallelism with
        | some p => rfl
        | none => cases s.auto.maxParallelism <;> rfl
      · split
        · rfl
        · show (if _ then _ else _ : Reason).isStatic = _
          split <;> rfl

/-- For a vertex that is not elastic the decision is `staticParallelism`, whatever slots are
`available`. -/
theorem decideWithin_of_not_elastic (helastic : s.isElastic v = false)
    (inputs : List InputStatistics) (available : Option ResourceView) :
    s.decideWithin v inputs available = s.staticParallelism v := by
  have hstatic : (s.decide v inputs).reason.isStatic = true := by
    rw [isStatic_decide, helastic]
    rfl
  rw [← decide_of_not_elastic helastic inputs]
  unfold decideWithin
  cases available with
  | none => rfl
  | some view => exact if_pos hstatic

/-- The size that a vertex starts with is what its requirement allows, `achievable`, at the slots of
the view. -/
theorem decideWithin_eq_achievable (s : Sizing) (v : JobVertex) (inputs : List InputStatistics)
    (view : ResourceView) :
    s.decideWithin v inputs (some view) = (s.requirement v inputs).achievable view.slotCount := by
  unfold decideWithin requirement Requirement.achievable
  simp only [isStatic_decide]
  cases s.isElastic v with
  | true =>
    -- The desired size was raised to the lower bound before, and raising twice changes nothing.
    simp only [Bool.not_true, Bool.false_eq_true, if_false, if_true, Requirement.between]
    omega
  | false => rfl

/-- An admitted vertex starts with no fewer tasks than it accepts,
`(s.requirement v inputs).min`. -/
theorem min_le_decideWithin (h : s.validateVertex v = .ok ()) (inputs : List InputStatistics)
    (view : ResourceView) :
    (s.requirement v inputs).min ≤ s.decideWithin v inputs (some view) := by
  rw [decideWithin_eq_achievable]
  exact Requirement.min_le_achievable (requirement_valid h inputs).min_le_desired _

end Sizing

end AdaptiveBatch
