import AdaptiveBatch.Config.Resolve

/-! # What validated settings satisfy

The checks of the settings are a list of refusals; settings are accepted when none applies.

* **`Config.validate_eq_ok_iff`** — the parts that are checked;
* **`Config.validateAuto_eq_ok_iff`** — what is asked of the bounds and the data volume;
* **`Config.validateRescale_eq_ok_iff`** — what is asked of the intervals between restarts. -/

namespace AdaptiveBatch.Config

/-- A refusal under the condition `p`, followed by other checks, passes iff `p` fails and the others
pass. -/
theorem refuse_eq_ok_iff {ε : Type} {p : Prop} [Decidable p] {e : ε}
    {rest : Unit → Except ε Unit} :
    (if p then throw e >>= rest else rest ()) = .ok () ↔ ¬p ∧ rest () = .ok () := by
  by_cases hp : p
  · simp [hp, throw, throwThe, MonadExceptOf.throw, bind, Except.bind]
  · simp [hp]

/-- A group of checks, followed by others, passes iff both `first` and `rest` do. -/
theorem check_eq_ok_iff {ε : Type} {first rest : Except ε Unit} :
    (first >>= fun _ => rest) = .ok () ↔ first = .ok () ∧ rest = .ok () := by
  cases first <;> simp [bind, Except.bind]

/-- The last refusal passes iff its condition `p` fails. -/
theorem refuse_last_eq_ok_iff {ε : Type} {p : Prop} [Decidable p] {e : ε} :
    (if p then throw e else pure () : Except ε Unit) = .ok () ↔ ¬p := by
  by_cases hp : p <;> simp [hp, throw, throwThe, MonadExceptOf.throw, pure, Except.pure]

variable {c : Config}

/-- Settings pass `validate` iff each group passes its own checks and the counts that must not be
zero are not. -/
theorem validate_eq_ok_iff : c.validate = .ok () ↔
    c.defaultParallelism ≠ 0 ∧ validateAuto c.auto = .ok () ∧
      c.speculative.maxConcurrentExecutions ≠ 0 ∧ validateDetector c.detector = .ok () ∧
        validateRescale c.rescale = .ok () ∧ c.slots.maxSlots ≠ some 0 := by
  unfold validate
  simp only [refuse_eq_ok_iff, check_eq_ok_iff, refuse_last_eq_ok_iff, ne_eq]

/-- The settings of automatic parallelism pass iff no bound is `0`, the bounds are not empty,
`minParallelism ≤ upperBound`, and a task is given some data. -/
theorem validateAuto_eq_ok_iff {a : AutoParallelism} : validateAuto a = .ok () ↔
    a.minParallelism ≠ 0 ∧ a.maxParallelism ≠ some 0 ∧ a.defaultSourceParallelism ≠ some 0 ∧
      a.minParallelism ≤ a.upperBound ∧ a.avgDataVolumePerTask ≠ 0 := by
  unfold validateAuto
  simp only [refuse_eq_ok_iff, refuse_last_eq_ok_iff, ne_eq, Nat.not_lt]

/-- The settings of rescaling pass iff `minParallelismIncrease` is not `0` and `intervalMin` does
not exceed an `intervalMax` that is set. -/
theorem validateRescale_eq_ok_iff {r : RescaleConfig} : validateRescale r = .ok () ↔
    r.minParallelismIncrease ≠ 0 ∧ ∀ max, r.intervalMax = some max → r.intervalMin ≤ max := by
  unfold validateRescale
  simp only [refuse_eq_ok_iff]
  refine and_congr_right fun _ => ?_
  cases r.intervalMax with
  | none => simp [pure, Except.pure]
  | some interval =>
    show (if interval < r.intervalMin then throw _ else pure () : Except ConfigError Unit) = .ok () ↔
      _
    rw [refuse_last_eq_ok_iff]
    simp [Duration.lt_iff, Duration.le_iff]

end AdaptiveBatch.Config
