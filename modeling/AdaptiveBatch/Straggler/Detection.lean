import AdaptiveBatch.Execution.Graph
import AdaptiveBatch.Straggler.Baseline

/-! # Slow attempts

An attempt is slow when it has run longer than the threshold of its vertex. One that has read more
than the sample did on average is given proportionally more time.

* **`SlowAttempt`**, **`DetectorConfig.slowIn`** — the slow attempts of a vertex;
* **`Config.slowAttempts`** — those of a job. -/

namespace AdaptiveBatch

/-- A running attempt that has run too long. -/
@[ext] structure SlowAttempt where
  /-- The attempt. -/
  id : AttemptId
  /-- Its node. -/
  node : NodeId
  /-- The time it has run. -/
  elapsed : Duration
  /-- The time it was given. -/
  threshold : Duration
deriving DecidableEq, Repr

/-- The time an attempt is given that has read so many bytes. -/
def Baseline.thresholdFor (b : Baseline) (inputBytes : Option Nat) : Duration :=
  match inputBytes, b.averageInputBytes with
  | some bytes, some average =>
    if 0 < average ∧ average < bytes then
      b.threshold.scale (Word.toFloat bytes / Word.toFloat average)
    else b.threshold
  | _, _ => b.threshold

/-- An attempt that is slow by a baseline. -/
def Baseline.slow? (b : Baseline) (now : Instant) (a : Attempt) : Option SlowAttempt :=
  match a.elapsed? now with
  | none => none
  | some elapsed =>
    let threshold := b.thresholdFor a.inputBytes
    if threshold < elapsed then some { id := a.id, node := a.node, elapsed, threshold } else none

/-- The slow attempts of a vertex. -/
def DetectorConfig.slowIn (d : DetectorConfig) (v : VertexExecution) (now : Instant) :
    List SlowAttempt :=
  match d.baseline? v with
  | none => []
  | some b => v.runningAttempts.filterMap (b.slow? now)

/-- The slow attempts of a job; none is looked for unless they get further attempts. -/
def Config.slowAttempts (c : Config) (g : ExecutionGraph) (now : Instant) : List SlowAttempt :=
  if c.speculative.enabled then
    (g.toList.filter (!·.isFinished)).flatMap (c.detector.slowIn · now)
  else []

end AdaptiveBatch
