import AdaptiveBatch.Execution.Vertex
import AdaptiveBatch.Config.Basic

/-! # The baseline of a vertex

When enough tasks of a vertex are finished, the first of them to end are its sample. Attempts that
have all read something weigh as much as they have read, otherwise every attempt weighs the same;
the weighted median of the times they took, times a factor, is the threshold beyond which an attempt
is slow.

The samples are taken in ascending order of their durations, and the weight passed on the way is
added up; the median is the duration at which it reaches half of the weight of all samples.

* **`byDuration`**, **`firstCovering`** — the order, and the walk along it;
* **`weightedMedian`** — the duration at which the walk stops; none when nothing carries weight;
* **`DetectorConfig.sampleSize`** — how many tasks are enough;
* **`Baseline`**, **`DetectorConfig.baseline?`** — the median and the threshold. -/

namespace AdaptiveBatch

/-! ## Weighted median -/

/-- The samples in ascending order of their durations. -/
def byDuration (samples : List (Duration × Nat)) : List (Duration × Nat) :=
  samples.mergeSort fun a b => decide (a.1 ≤ b.1)

/-- The first duration, in a list taken in order, at which the weight passed so far reaches half of
`total`. -/
def firstCovering (total : Nat) : (covered : Nat) → List (Duration × Nat) → Option Duration
  | _, [] => none
  | covered, (d, weight) :: rest =>
    if total ≤ 2 * (covered + weight) then some d else firstCovering total (covered + weight) rest

/-- The weighted median of durations with their weights. Should the walk come to the end, it is the
longest duration. -/
def weightedMedian (samples : List (Duration × Nat)) : Option Duration :=
  let sorted := byDuration samples
  let weight := total (samples.map (·.2))
  if weight = 0 then none
  else (firstCovering weight 0 sorted).or (sorted.getLast?.map (·.1))

/-! ## Baselines -/

/-- What is usual for a vertex. -/
@[ext] structure Baseline where
  /-- The vertex. -/
  vertex : VertexId
  /-- The weighted median of the times in the sample. -/
  median : Duration
  /-- The time beyond which an attempt is slow. -/
  threshold : Duration
  /-- The bytes an attempt of the sample has read on average, when all have read something. -/
  averageInputBytes : Option Nat
  /-- The size of the sample. -/
  sampleSize : Nat
deriving DecidableEq, Repr

/-- An attempt of the sample: the time it took and the bytes it has read. -/
abbrev Sampled := Duration × Option Nat

/-- Whether every attempt of a sample has read something. -/
def weighsByBytes (sample : List Sampled) : Bool := sample.all fun s => s.2.any (0 < ·)

/-- The attempts of a sample with their weights. -/
def weighted (sample : List Sampled) : List (Duration × Nat) :=
  sample.map fun s => (s.1, if weighsByBytes sample then s.2.getD 1 else 1)

namespace DetectorConfig

/-- The number of finished tasks that make a sample: the configured share, rounded half away from
zero, and at least one. -/
def sampleSize (d : DetectorConfig) (parallelism : Nat) : Nat :=
  max 1 (Word.ofFloat (Word.toFloat parallelism * d.ratio))

/-- The first `n` attempts to win their tasks. -/
def sample (v : VertexExecution) (n : Nat) : List Sampled :=
  (v.winnersByEndTime.take n).filterMap fun a => a.duration?.map (·, a.inputBytes)

/-- The baseline that a sample gives. -/
def baselineOf? (d : DetectorConfig) (vertex : VertexId) (sample : List Sampled) :
    Option Baseline :=
  (weightedMedian (weighted sample)).map fun median =>
    let bytes := total ((weighted sample).map (·.2))
    { vertex, median
      threshold := max (median.scale d.multiplier) d.lowerBound
      averageInputBytes :=
        if weighsByBytes sample then some (Word.saturate (bytes / sample.length)) else none
      sampleSize := sample.length }

/-- The baseline of a vertex; none while too few tasks are finished. -/
def baseline? (d : DetectorConfig) (v : VertexExecution) : Option Baseline :=
  let n := d.sampleSize v.parallelism
  if v.winners.length < n then none else d.baselineOf? v.vertex (sample v n)

end DetectorConfig

end AdaptiveBatch
