import AdaptiveBatch.Proofs.Config.Validation
import AdaptiveBatch.Proofs.Sizing.Requirements
import Mathlib.Data.List.Forall2
import Mathlib.Order.Bounds.Defs

/-! # Sufficient parallelism

The parallelism of a vertex with inputs comes out of accumulated bytes, a division, two caps and the
bounds of the vertex. It can be said without them: it is the least parallelism within the bounds that
suffices for the inputs, so that its tasks take all bytes at the volume a task should have, and no estimate
asks for more; and the largest one within the bounds when none suffices.

* **`InputStatistics.bytesBy`**, **`InputStatistics.tasksBy`** — what one input stands for;
* **`Sizing.Suffices`** — a parallelism is enough for the inputs;
* **`Bounds.Selects`**, **`Bounds.selects_clamp`** — the least parallelism with a property, within bounds;
* **`Sizing.decide_perm`**, **`Sizing.decide_mono`** — the inputs in another order, and with more bytes;
* **`Sizing.least_sufficient_parallelism`** — what is decided for a vertex with inputs. -/

namespace AdaptiveBatch

/-! ## What the inputs ask for -/

namespace InputStatistics

variable {i j : InputStatistics} {policy : PartialStatistics}

/-- The input brings the bytes that it has brought so far: it is a blocking one, or the producer of a
hybrid one has finished. -/
def IsKnown (i : InputStatistics) : Prop :=
  i.exchange = .blocking ∨ i.exchange = .hybrid ∧ i.isComplete = true

/-- The input is a hybrid one whose producer has not finished. -/
def IsPartial (i : InputStatistics) : Prop := i.exchange = .hybrid ∧ i.isComplete = false

instance : DecidablePred IsKnown := fun _ => inferInstanceAs (Decidable (_ ∨ _))

instance : DecidablePred IsPartial := fun _ => inferInstanceAs (Decidable (_ ∧ _))

/-- An input that is known is not a partial one. -/
theorem not_isPartial_of_isKnown (h : i.IsKnown) : ¬i.IsPartial := by
  rintro ⟨hexchange, hcomplete⟩
  rcases h with hblocking | ⟨-, hall⟩
  · rw [hexchange] at hblocking
    cases hblocking
  · rw [hcomplete] at hall
    cases hall

/-- The bytes that an input stands for: those that it has brought, or those that are estimated. -/
def bytesBy (policy : PartialStatistics) (i : InputStatistics) : Nat :=
  if i.IsKnown then i.producedBytes
  else if i.IsPartial then (policy.estimate i).volume
  else 0

/-- The parallelism that is estimated for an input. -/
def tasksBy (policy : PartialStatistics) (i : InputStatistics) : Nat :=
  if i.IsPartial then (policy.estimate i).floor else 0

/-- A known input contributes its bytes, a partial one the estimate of the `policy`, and any other
one nothing. -/
theorem contribution_eq (policy : EstimatePolicy) (i : InputStatistics) : i.contribution policy =
    if i.IsKnown then some (.bytes i.producedBytes)
    else if i.IsPartial then some (policy.estimate i)
    else none := by
  cases hexchange : i.exchange with
  | pipelined => simp [contribution, IsKnown, IsPartial, hexchange]
  | blocking => simp [contribution, IsKnown, hexchange]
  | hybrid => cases hcomplete : i.isComplete <;>
      simp [contribution, IsKnown, IsPartial, hexchange, hcomplete]

/-- Only a `.pipelined` input contributes nothing. -/
theorem contribution_eq_none_iff {policy : EstimatePolicy} :
    i.contribution policy = none ↔ i.exchange = .pipelined := by
  unfold contribution
  cases i.exchange with
  | pipelined => simp
  | blocking => simp
  | hybrid => cases i.isComplete <;> simp

/-- The volume that an input contributes is `i.bytesBy policy`. -/
theorem volume_contribution :
    (i.contribution policy.policy).elim 0 Estimate.volume = i.bytesBy policy := by
  rw [contribution_eq]
  unfold bytesBy
  split
  · rfl
  · split <;> rfl

/-- The parallelism that an input contributes is `i.tasksBy policy`. -/
theorem floor_contribution :
    (i.contribution policy.policy).elim 0 Estimate.floor = i.tasksBy policy := by
  rw [contribution_eq]
  unfold tasksBy
  split
  · -- What is known is not estimated.
    next hknown =>
    rw [if_neg (not_isPartial_of_isKnown hknown)]
    rfl
  · split <;> rfl

/-- The same input with at least as many bytes, produced by as many tasks. -/
def Grows (i j : InputStatistics) : Prop :=
  ∃ bytes, i.producedBytes ≤ bytes ∧ j = { i with producedBytes := bytes }

/-- An input with more bytes is read in the same way. -/
theorem Grows.exchange_eq (h : i.Grows j) : j.exchange = i.exchange := by
  obtain ⟨bytes, -, rfl⟩ := h
  rfl

/-- An input with more bytes is estimated to ask for the same parallelism. -/
theorem Grows.tasksBy_eq (h : i.Grows j) : j.tasksBy policy = i.tasksBy policy := by
  obtain ⟨bytes, -, rfl⟩ := h
  have hestimate : (policy.estimate { i with producedBytes := bytes }).floor =
      (policy.estimate i).floor := by
    cases policy with
    | producerParallelism => rfl
    | extrapolate =>
      simp only [PartialStatistics.estimate]
      split <;> rfl
  unfold tasksBy
  rw [hestimate]
  rfl

/-- More bytes of as many tasks are extrapolated to more bytes: `bytesBy` is monotone. -/
theorem Grows.bytesBy_le (h : i.Grows j) : i.bytesBy policy ≤ j.bytesBy policy := by
  obtain ⟨bytes, hle, rfl⟩ := h
  have hestimate : (policy.estimate i).volume ≤
      (policy.estimate { i with producedBytes := bytes }).volume := by
    cases policy with
    | producerParallelism => exact Nat.le_refl _
    | extrapolate =>
      simp only [PartialStatistics.estimate]
      split
      · exact Nat.le_refl _
      · exact Word.saturate_mono (Nat.div_le_div_right (Nat.mul_le_mul_right _ hle))
  unfold bytesBy
  show (if i.IsKnown then _ else if i.IsPartial then _ else _) ≤
    if i.IsKnown then bytes else if i.IsPartial then _ else 0
  split
  · exact hle
  · split
    · exact hestimate
    · exact Nat.le_refl _

end InputStatistics

section Pointwise

variable {α β : Type} {R : α → α → Prop} {l l' : List α}

/-- Where `f` takes related elements to the same value, related lists have the same image. -/
theorem map_eq_of_forall₂ {f : α → β} (h : List.Forall₂ R l l') (hf : ∀ a b, R a b → f b = f a) :
    l'.map f = l.map f := by
  induction h with
  | nil => rfl
  | cons hab _ ih => rw [List.map_cons, List.map_cons, hf _ _ hab, ih]

/-- Where `f` does not fall along `R`, the total of the images of a list does not either. -/
theorem total_map_le {f : α → Nat} (h : List.Forall₂ R l l') (hf : ∀ a b, R a b → f a ≤ f b) :
    total (l.map f) ≤ total (l'.map f) := by
  induction h with
  | nil => exact Nat.le_refl _
  | cons hab _ ih => exact Nat.add_le_add (hf _ _ hab) ih

end Pointwise

/-! ## Bounds -/

namespace Bounds

variable {b : Bounds} {P : Nat → Prop} {target : Nat}

/-- The least parallelism within the bounds that has a property, or the largest one when none has it. -/
def Selects (b : Bounds) (P : Nat → Prop) (parallelism : Nat) : Prop :=
  IsLeast {p | b.min ≤ p ∧ p ≤ b.max ∧ P p} parallelism ∨
    (∀ p, b.min ≤ p → p ≤ b.max → ¬P p) ∧ parallelism = b.max

/-- Moving a `target` into the bounds selects the least parallelism that reaches it. -/
theorem selects_clamp (hb : b.min ≤ b.max) (h : ∀ p, P p ↔ target ≤ p) :
    b.Selects P (b.clamp target) := by
  unfold clamp
  by_cases htarget : target ≤ b.max
  · refine Or.inl ⟨⟨by omega, by omega, (h _).2 (by omega)⟩, ?_⟩
    rintro p ⟨hmin, -, hp⟩
    have hreach := (h p).1 hp
    omega
  · refine Or.inr ⟨fun p _ hmax hp => ?_, by omega⟩
    have hreach := (h p).1 hp
    omega

/-- Clamping to bounds keeps `≤`. -/
theorem clamp_mono {target' : Nat} (h : target ≤ target') : b.clamp target ≤ b.clamp target' := by
  unfold clamp
  omega

/-- A bound below `HalfWord.limit` hides that a target was capped at the largest 32-bit count. -/
theorem clamp_saturate (h : b.max < HalfWord.limit) (needed estimate : Nat) :
    b.clamp (Max.max (HalfWord.saturate needed) estimate) = b.clamp (Max.max needed estimate) := by
  unfold clamp HalfWord.saturate HalfWord.max
  omega

end Bounds

/-! ## The decision -/

namespace Sizing

variable {s : Sizing} {v : JobVertex} {policy : PartialStatistics} {inputs others : List InputStatistics}

/-- The bytes that the inputs stand for, as a 64-bit count. -/
def bytesOf (policy : PartialStatistics) (inputs : List InputStatistics) : Nat :=
  Word.saturate (total (inputs.map (·.bytesBy policy)))

/-- The largest parallelism that is estimated for an input. -/
def tasksOf (policy : PartialStatistics) (inputs : List InputStatistics) : Nat :=
  largest (inputs.map (·.tasksBy policy))

/-- So many tasks are enough for the inputs: they take all bytes when each takes the volume that a task
should have, and no input is estimated to ask for more tasks. -/
structure Suffices (s : Sizing) (policy : PartialStatistics) (inputs : List InputStatistics)
    (parallelism : Nat) : Prop where
  /-- They take all bytes. -/
  bytes : bytesOf policy inputs ≤ parallelism * s.auto.avgDataVolumePerTask
  /-- No estimate asks for more. -/
  tasks : tasksOf policy inputs ≤ parallelism

/-- The volume that the sizing computes for some inputs is `bytesOf policy inputs`. -/
theorem volume_eq (h : s.policy = policy.policy) (inputs : List InputStatistics) :
    s.volume inputs = bytesOf policy inputs := by
  unfold volume bytesOf
  rw [h]
  congr 1
  induction inputs with
  | nil => rfl
  | cons i rest ih =>
    rw [List.map_cons, total_cons, ← ih, ← i.volume_contribution, List.filterMap_cons]
    cases i.contribution policy.policy with
    | none => exact (Nat.zero_add _).symm
    | some e => rfl

/-- The parallelism that the sizing estimates for some inputs is `tasksOf policy inputs`. -/
theorem estimate_eq (h : s.policy = policy.policy) (inputs : List InputStatistics) :
    s.estimate inputs = tasksOf policy inputs := by
  unfold estimate tasksOf
  rw [h]
  induction inputs with
  | nil => rfl
  | cons i rest ih =>
    rw [List.map_cons, largest_cons, ← ih, ← i.floor_contribution, List.filterMap_cons]
    cases i.contribution policy.policy with
    | none => exact (Nat.zero_max _).symm
    | some e => rfl

/-- Some input is a blocking or a hybrid one, so that something is known about the inputs. -/
def Informative (inputs : List InputStatistics) : Prop := ∃ i ∈ inputs, i.exchange ≠ .pipelined

/-- Inputs are informative iff one of their exchanges is not `.pipelined`. -/
theorem informative_iff : Informative inputs ↔ ∃ mode ∈ inputs.map (·.exchange), mode ≠ .pipelined := by
  simp [Informative]

/-- What is decided for a vertex that the user has not fixed, with `Informative` inputs, is the
larger of the two estimates, clamped to its bounds. -/
theorem parallelism_decide (henabled : s.auto.enabled = true) (hfree : v.parallelism = none)
    (hinputs : Informative inputs) : (s.decide v inputs).parallelism =
      (s.bounds v).clamp (max (s.tasksFor (s.volume inputs)) (s.estimate inputs)) := by
  obtain ⟨i, hi, hexchange⟩ := hinputs
  have hsome : inputs.isEmpty = false := by
    rw [List.isEmpty_eq_false_iff]
    exact List.ne_nil_of_mem hi
  have hknown : (inputs.filterMap (·.contribution s.policy)).isEmpty = false := by
    obtain ⟨e, he⟩ := Option.ne_none_iff_exists'.1
      (mt InputStatistics.contribution_eq_none_iff.1 hexchange)
    rw [List.isEmpty_eq_false_iff]
    exact List.ne_nil_of_mem (List.mem_filterMap.2 ⟨i, hi, he⟩)
  unfold decide
  simp only [hfree, henabled, hsome, hknown, Bool.not_true, Bool.false_eq_true, if_false]

/-- The order of the inputs does not matter: permuted inputs lead to the same decision. -/
theorem decide_perm (h : inputs.Perm others) : s.decide v others = s.decide v inputs := by
  have hmap {α : Type} (f : Estimate → α) :
      ((inputs.filterMap (·.contribution s.policy)).map f).Perm
        ((others.filterMap (·.contribution s.policy)).map f) :=
    (h.filterMap _).map f
  have hvolume : s.volume others = s.volume inputs := by
    unfold volume
    rw [total_perm (hmap _)]
  have hestimate : s.estimate others = s.estimate inputs := by
    unfold estimate
    rw [largest_perm (hmap _)]
  unfold decide
  rw [h.isEmpty_eq, (h.filterMap _).isEmpty_eq, hvolume, hestimate]

/-- More bytes take no fewer tasks. -/
theorem tasksFor_mono {bytes bytes' : Nat} (h : bytes ≤ bytes') :
    s.tasksFor bytes ≤ s.tasksFor bytes' :=
  HalfWord.saturate_mono (Nat.div_le_div_right (Nat.add_le_add_right h _))

/-- So many tasks take all bytes when there are no fewer than the quotient by `perTask`, rounded
up. -/
theorem bytes_le_iff {perTask bytes parallelism : Nat} (h : perTask ≠ 0) :
    bytes ≤ parallelism * perTask ↔ (bytes + (perTask - 1)) / perTask ≤ parallelism := by
  rw [Nat.div_le_iff_le_mul_add_pred (Nat.pos_of_ne_zero h), Nat.mul_comm perTask]
  omega

/-- So many tasks suffice iff they reach both the quotient of the bytes by `avgDataVolumePerTask`,
rounded up, and the largest estimate. -/
theorem suffices_iff (h : s.auto.avgDataVolumePerTask ≠ 0) {parallelism : Nat} :
    s.Suffices policy inputs parallelism ↔
      max ((bytesOf policy inputs + (s.auto.avgDataVolumePerTask - 1)) / s.auto.avgDataVolumePerTask)
        (tasksOf policy inputs) ≤ parallelism := by
  rw [Nat.max_le, ← bytes_le_iff h]
  exact ⟨fun hp => ⟨hp.bytes, hp.tasks⟩, fun hp => ⟨hp.1, hp.2⟩⟩

/-- More bytes never lower the decision: inputs that grow to `others` lead to at least as many
tasks. -/
theorem decide_mono (hpolicy : s.policy = policy.policy) (henabled : s.auto.enabled = true)
    (hfree : v.parallelism = none) (hinputs : Informative inputs)
    (h : List.Forall₂ InputStatistics.Grows inputs others) :
    (s.decide v inputs).parallelism ≤ (s.decide v others).parallelism := by
  have hothers : Informative others := by
    rw [informative_iff, map_eq_of_forall₂ h fun _ _ => InputStatistics.Grows.exchange_eq]
    exact informative_iff.1 hinputs
  have htasks : tasksOf policy others = tasksOf policy inputs := by
    unfold tasksOf
    rw [map_eq_of_forall₂ h fun _ _ => InputStatistics.Grows.tasksBy_eq]
  have hbytes : bytesOf policy inputs ≤ bytesOf policy others :=
    Word.saturate_mono (total_map_le h fun _ _ => InputStatistics.Grows.bytesBy_le)
  rw [parallelism_decide henabled hfree hinputs, parallelism_decide henabled hfree hothers,
    volume_eq hpolicy, volume_eq hpolicy, estimate_eq hpolicy, estimate_eq hpolicy, htasks]
  have hneeded : s.tasksFor (bytesOf policy inputs) ≤ s.tasksFor (bytesOf policy others) :=
    tasksFor_mono hbytes
  exact Bounds.clamp_mono (by omega)

/-- The sizing of a configuration with one of the two rules for unfinished hybrid inputs. -/
def ofConfigWith (c : Config) (policy : PartialStatistics) : Sizing :=
  { ofConfig c with policy := policy.policy }

/-- **The least sufficient parallelism.** Under settings that are accepted, with automatic
decisions, for an accepted vertex that the user has not fixed, with at least one blocking or hybrid
input (`Informative`), and with either rule for unfinished hybrid inputs: what is decided is the
least parallelism within the bounds of the vertex that suffices for the inputs, and the largest one
when none does (`Bounds.Selects`). It does not depend on the order of the inputs, and it never falls
when inputs have brought more bytes from as many finished tasks (`InputStatistics.Grows`). (Bounds
are 32-bit counts.) -/
theorem least_sufficient_parallelism (c : Config) (policy : PartialStatistics) (v : JobVertex)
    (inputs : List InputStatistics) (hconfig : c.validate = .ok ()) (henabled : c.auto.enabled = true)
    (hvertex : (ofConfigWith c policy).validateVertex v = .ok ()) (hfree : v.parallelism = none)
    (hword : ((ofConfigWith c policy).bounds v).max < HalfWord.limit) (hinputs : Informative inputs) :
    ((ofConfigWith c policy).bounds v).Selects ((ofConfigWith c policy).Suffices policy inputs)
        ((ofConfigWith c policy).decide v inputs).parallelism ∧
      (∀ others, inputs.Perm others →
        (ofConfigWith c policy).decide v others = (ofConfigWith c policy).decide v inputs) ∧
      ∀ others, List.Forall₂ InputStatistics.Grows inputs others →
        ((ofConfigWith c policy).decide v inputs).parallelism ≤
          ((ofConfigWith c policy).decide v others).parallelism := by
  refine ⟨?_, fun others => decide_perm, fun others => decide_mono rfl henabled hfree hinputs⟩
  obtain ⟨-, hauto, -⟩ := Config.validate_eq_ok_iff.1 hconfig
  obtain ⟨-, -, -, -, hperTask⟩ := Config.validateAuto_eq_ok_iff.1 hauto
  obtain ⟨-, hbounds, -⟩ := validateVertex_eq_ok_iff.1 hvertex
  have hmax : max c.auto.avgDataVolumePerTask 1 = c.auto.avgDataVolumePerTask := by omega
  rw [parallelism_decide henabled hfree hinputs, volume_eq rfl, estimate_eq rfl]
  unfold tasksFor
  rw [Bounds.clamp_saturate hword]
  apply Bounds.selects_clamp hbounds
  intro p
  show Suffices _ policy inputs p ↔ max ((bytesOf policy inputs +
    (max c.auto.avgDataVolumePerTask 1 - 1)) / max c.auto.avgDataVolumePerTask 1) _ ≤ p
  rw [hmax]
  exact suffices_iff hperTask

/-- A blocking input, and a hybrid one of which five of twenty tasks have finished. -/
def sampleInputs : List InputStatistics :=
  [{ producer := "orders", exchange := .blocking, producerParallelism := 4, finishedProducers := 4,
      producedBytes := 33 * ByteSize.megabyte },
    { producer := "clicks", exchange := .hybrid, producerParallelism := 20, finishedProducers := 5,
      producedBytes := 16 * ByteSize.megabyte }]

/-- Together the `sampleInputs` stand for 97 megabytes, which takes seven tasks of 16. -/
theorem least_sufficient_parallelism_sample :
    IsLeast {p | 1 ≤ p ∧ p ≤ 128 ∧ (ofConfigWith .standard .extrapolate).Suffices .extrapolate sampleInputs p} 7 ∧
      ((ofConfigWith .standard .extrapolate).decide { id := "sink" } sampleInputs.reverse).parallelism = 7 := by
  have hinputs : Informative sampleInputs :=
    ⟨_, List.mem_cons_self, ExchangeMode.noConfusion⟩
  have hseven : ((ofConfigWith .standard .extrapolate).decide { id := "sink" } sampleInputs).parallelism = 7 := by
    decide
  obtain ⟨hselects, hperm, -⟩ := least_sufficient_parallelism .standard .extrapolate { id := "sink" }
    sampleInputs (by decide +kernel) rfl (by decide) rfl (by decide) hinputs
  rw [hseven] at hselects
  refine ⟨hselects.resolve_right fun hnone => ?_, ?_⟩
  · -- Seven is below the largest parallelism.
    exact absurd hnone.2 (by decide)
  · rw [hperm _ (List.reverse_perm _).symm, hseven]

end Sizing

end AdaptiveBatch
