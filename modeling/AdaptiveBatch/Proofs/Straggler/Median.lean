import AdaptiveBatch.Straggler.Baseline
import Mathlib.Data.List.Basic
import Mathlib.Order.Bounds.Defs

/-! # The weighted median as a least duration

The median is found by a walk along the sorted samples, and yet it does not depend on how the sort
arranges samples of equal duration: it is the least duration of a sample at which the samples up to
it carry half of the weight, and this says nothing about an order.

* **`weightOf`** — the weight of the samples whose durations satisfy a condition;
* **`Stops`**, **`exists_stops`** — where the walk along sorted samples stops; it always does;
* **`covering`** — the durations up to which half of the weight is carried;
* **`weightedMedian_isLeast_covering`** — the median is the least of them. -/

namespace AdaptiveBatch

variable {samples others : List (Duration × Nat)} {weight covered : Nat} {m d : Duration}

/-! ## Weights -/

/-- The weight of the samples whose durations satisfy a condition. -/
def weightOf (samples : List (Duration × Nat)) (p : Duration → Prop) [DecidablePred p] : Nat :=
  total ((samples.filter fun s => p s.1).map (·.2))

section Weights

variable {p q : Duration → Prop} [DecidablePred p] [DecidablePred q]

@[simp] theorem weightOf_nil : weightOf [] p = 0 := rfl

/-- The weight of `s :: samples` under a condition is that of `samples`, and that of `s` if it
satisfies it. -/
theorem weightOf_cons (s : Duration × Nat) :
    weightOf (s :: samples) p = (if p s.1 then s.2 else 0) + weightOf samples p := by
  unfold weightOf
  by_cases h : p s.1
  · rw [List.filter_cons_of_pos (by simpa using h), if_pos h]
    rfl
  · rw [List.filter_cons_of_neg (by simpa using h), if_neg h, Nat.zero_add]

/-- The weight under a condition does not depend on the order of the samples. -/
theorem weightOf_perm (h : samples.Perm others) : weightOf samples p = weightOf others p :=
  total_perm ((h.filter _).map _)

/-- A stricter condition `p` leaves no more weight than `q`. -/
theorem weightOf_mono (h : ∀ s ∈ samples, p s.1 → q s.1) : weightOf samples p ≤ weightOf samples q := by
  induction samples with
  | nil => exact Nat.le_refl _
  | cons s rest ih =>
    obtain ⟨hs, hrest⟩ := List.forall_mem_cons.1 h
    rw [weightOf_cons, weightOf_cons]
    refine Nat.add_le_add ?_ (ih hrest)
    by_cases hp : p s.1
    · exact Nat.le_of_eq ((if_pos hp).trans (if_pos (hs hp)).symm)
    · rw [if_neg hp]
      exact Nat.zero_le _

/-- Where no sample satisfies the condition `p`, there is no weight. -/
theorem weightOf_eq_zero (h : ∀ s ∈ samples, ¬p s.1) : weightOf samples p = 0 := by
  unfold weightOf
  rw [List.filter_eq_nil_iff.2 (by simpa using h)]
  rfl

end Weights

/-! ## The walk -/

/-- A walk stops at a duration: together with the weight passed before, the samples up to it carry
half of the weight, and those below it do not. -/
structure Stops (weight covered : Nat) (samples : List (Duration × Nat)) (m : Duration) : Prop where
  /-- It is the duration of a sample. -/
  mem : m ∈ samples.map (·.1)
  /-- The samples up to it carry half of the weight. -/
  reached : weight ≤ 2 * (covered + weightOf samples (· ≤ m))
  /-- The samples below it do not. -/
  below : 2 * (covered + weightOf samples (· < m)) < weight

/-- The walk `firstCovering` along sorted samples stops before it has passed all of them. -/
theorem exists_stops (hsorted : samples.Pairwise fun a b => a.1 ≤ b.1)
    (hless : 2 * covered < weight) (hreach : weight ≤ 2 * (covered + total (samples.map (·.2)))) :
    ∃ m, firstCovering weight covered samples = some m ∧ Stops weight covered samples m := by
  induction samples generalizing covered with
  | nil =>
    rw [List.map_nil, total_nil] at hreach
    omega
  | cons first rest ih =>
    obtain ⟨d, w⟩ := first
    obtain ⟨hfirst, hrest⟩ := List.pairwise_cons.1 hsorted
    rw [firstCovering]
    by_cases hstop : weight ≤ 2 * (covered + w)
    · rw [if_pos hstop]
      refine ⟨d, rfl, List.mem_cons_self, ?_, ?_⟩
      · rw [weightOf_cons, if_pos (Duration.le_iff.2 (Nat.le_refl _))]
        omega
      · -- The first sample is the shortest one, so nothing lies below it.
        have hnone : weightOf ((d, w) :: rest) (· < d) = 0 := by
          apply weightOf_eq_zero
          intro s hs hlt
          rcases List.mem_cons.1 hs with rfl | hs
          · exact Nat.lt_irrefl _ hlt
          · exact Nat.not_lt.2 (hfirst s hs) hlt
        rw [hnone]
        exact hless
    · rw [if_neg hstop]
      rw [List.map_cons, total_cons, ← Nat.add_assoc] at hreach
      obtain ⟨m, hm, hmem, hreached, hbelow⟩ := ih hrest (Nat.not_le.1 hstop) hreach
      refine ⟨m, hm, List.mem_cons_of_mem _ hmem, ?_, ?_⟩
      · -- The first sample is no longer than the one at which the walk stops.
        obtain ⟨s, hs, rfl⟩ := List.mem_map.1 hmem
        rw [weightOf_cons, if_pos (hfirst s hs)]
        omega
      · rw [weightOf_cons]
        split <;> omega

/-! ## The median -/

/-- Sorting the samples by duration only permutes them. -/
theorem perm_byDuration (samples : List (Duration × Nat)) : (byDuration samples).Perm samples :=
  List.mergeSort_perm samples _

/-- The samples sorted by duration ascend. -/
theorem pairwise_byDuration (samples : List (Duration × Nat)) :
    (byDuration samples).Pairwise fun a b => a.1 ≤ b.1 := by
  have hsorted : (byDuration samples).Pairwise fun a b => decide (a.1 ≤ b.1) = true := by
    apply List.pairwise_mergeSort
    · intro a b c hab hbc
      exact decide_eq_true (Nat.le_trans (of_decide_eq_true hab) (of_decide_eq_true hbc))
    · intro a b
      simpa [Duration.le_iff] using Nat.le_total a.1.nanos b.1.nanos
  exact hsorted.imp of_decide_eq_true

/-- The durations up to which the samples carry half of the weight. -/
def covering (samples : List (Duration × Nat)) : Set Duration :=
  {d | d ∈ samples.map (·.1) ∧ total (samples.map (·.2)) ≤ 2 * weightOf samples (· ≤ d)}

/-- A walk that has passed nothing stops at the least duration that is `covering`. -/
theorem Stops.isLeast (h : Stops (total (samples.map (·.2))) 0 samples m) :
    IsLeast (covering samples) m := by
  have hreached := h.reached
  have hbelow := h.below
  rw [Nat.zero_add] at hreached hbelow
  refine ⟨⟨h.mem, hreached⟩, ?_⟩
  rintro d ⟨-, hd⟩
  by_contra hlt
  have hle : weightOf samples (· ≤ d) ≤ weightOf samples (· < m) := by
    apply weightOf_mono
    intro s _ hs
    exact Nat.lt_of_le_of_lt hs (Nat.not_le.1 hlt)
  omega

/-- Where a walk stops does not depend on the order of the samples. -/
theorem Stops.perm (h : Stops weight covered samples m) (hperm : samples.Perm others) :
    Stops weight covered others m where
  mem := (hperm.map _).mem_iff.1 h.mem
  reached := by rw [← weightOf_perm hperm]; exact h.reached
  below := by rw [← weightOf_perm hperm]; exact h.below

/-- Samples that carry weight have a median, and it is the walk `firstCovering` that finds it. -/
theorem exists_weightedMedian (h : total (samples.map (·.2)) ≠ 0) :
    ∃ m, firstCovering (total (samples.map (·.2))) 0 (byDuration samples) = some m ∧
      weightedMedian samples = some m ∧ Stops (total (samples.map (·.2))) 0 samples m := by
  have hperm := perm_byDuration samples
  have hless : 2 * 0 < total (samples.map (·.2)) := by omega
  have hreach : total (samples.map (·.2)) ≤ 2 * (0 + total ((byDuration samples).map (·.2))) := by
    rw [total_perm (hperm.map _)]
    omega
  obtain ⟨m, hm, hstops⟩ := exists_stops (pairwise_byDuration samples) hless hreach
  refine ⟨m, hm, ?_, hstops.perm hperm⟩
  unfold weightedMedian
  simp only [if_neg h, hm, Option.some_or]

/-- Samples that carry no weight have no median. -/
theorem weightedMedian_of_weightless (h : total (samples.map (·.2)) = 0) :
    weightedMedian samples = none := by
  unfold weightedMedian
  simp only [if_pos h]

/-- A least duration of a set is unique. -/
theorem isLeast_unique {durations : Set Duration} (hm : IsLeast durations m)
    (hd : IsLeast durations d) : m = d :=
  Duration.ext (Nat.le_antisymm (hm.2 hd.1) (hd.2 hm.1))

/-- **The weighted median is a least duration.** There is none exactly when no sample carries
weight. Otherwise it is the least duration of a sample at which the samples up to it carry half of
the weight (`covering`), so that those below it carry less. It does not depend on the order of the
samples, also where durations are equal or weights are zero; and the walk always stops
(`firstCovering`), so the longest duration is never taken for want of a better one. -/
theorem weightedMedian_isLeast_covering (samples : List (Duration × Nat)) :
    (weightedMedian samples = none ↔ total (samples.map (·.2)) = 0) ∧
    (∀ m, weightedMedian samples = some m → IsLeast (covering samples) m ∧
      2 * weightOf samples (· < m) < total (samples.map (·.2))) ∧
    (∀ others, samples.Perm others → weightedMedian others = weightedMedian samples) ∧
    (total (samples.map (·.2)) ≠ 0 →
      (firstCovering (total (samples.map (·.2))) 0 (byDuration samples)).isSome = true) := by
  by_cases h : total (samples.map (·.2)) = 0
  · have hnone := weightedMedian_of_weightless h
    refine ⟨⟨fun _ => h, fun _ => hnone⟩, ?_, ?_, fun hne => absurd h hne⟩
    · intro m hm
      rw [hnone] at hm
      cases hm
    · intro others hperm
      rw [hnone, weightedMedian_of_weightless (by rw [← total_perm (hperm.map _)]; exact h)]
  · obtain ⟨m, hwalk, hm, hstops⟩ := exists_weightedMedian h
    refine ⟨⟨fun hnone => ?_, fun h' => absurd h' h⟩, ?_, ?_, fun _ => by rw [hwalk]; rfl⟩
    · rw [hm] at hnone
      cases hnone
    · intro d hd
      obtain rfl : m = d := Option.some.inj (hm.symm.trans hd)
      have hbelow := hstops.below
      rw [Nat.zero_add] at hbelow
      exact ⟨hstops.isLeast, hbelow⟩
    · -- Both medians are the least covering duration of the same samples.
      intro others hperm
      have hsame := total_perm (hperm.map (·.2))
      have hothers : total (others.map (·.2)) ≠ 0 := by
        rw [← hsame]
        exact h
      obtain ⟨d, -, hd, hstops'⟩ := exists_weightedMedian hothers
      rw [hsame] at hstops
      rw [hm, hd, isLeast_unique (hstops.perm hperm).isLeast hstops'.isLeast]

/-- Two samples of equal duration, one of them weightless, and a weightless shortest one. -/
example : weightedMedian [(.ofSeconds 90, 2), (.ofSeconds 20, 3), (.ofSeconds 9, 0), (.ofSeconds 20, 0),
    (.ofSeconds 10, 1)] = some (.ofSeconds 20) := by
  cbv

end AdaptiveBatch
