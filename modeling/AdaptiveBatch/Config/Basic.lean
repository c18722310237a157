import AdaptiveBatch.Job.Graph
import AdaptiveBatch.Time.Notation
import AdaptiveBatch.Numeric.ByteSize

/-! # Configuration

The settings of the scheduler of one job, grouped by what they govern. A `Config` is fully resolved:
every setting has a value, and an absent one means something (no upper bound, no forced rescale).

* **`Config`** and its parts; **`Config.standard`** — what holds when nothing is configured;
* **`ConfigError`** — why settings are refused. -/

namespace AdaptiveBatch

/-- When the consumer of a hybrid edge may be scheduled. -/
inductive ConsumeConstraint
  /-- After every task of the producer has finished. -/
  | allProducersFinished
  /-- When there are finished producer tasks to read from. -/
  | onlyFinishedProducers
  /-- At any time. -/
  | unfinishedProducers
deriving DecidableEq, Repr

namespace ConsumeConstraint

/-- The name in configuration files. -/
def name : ConsumeConstraint → String
  | allProducersFinished => "ALL_PRODUCERS_FINISHED"
  | onlyFinishedProducers => "ONLY_FINISHED_PRODUCERS"
  | unfinishedProducers => "UNFINISHED_PRODUCERS"

/-- The constraint with a name. -/
def ofName? : String → Option ConsumeConstraint
  | "ALL_PRODUCERS_FINISHED" => some allProducersFinished
  | "ONLY_FINISHED_PRODUCERS" => some onlyFinishedProducers
  | "UNFINISHED_PRODUCERS" => some unfinishedProducers
  | _ => none

/-- Whether a consumer waits for every task of its producer. -/
def requiresFinished (c : ConsumeConstraint) : Bool := c == allProducersFinished

end ConsumeConstraint

/-- Which of the nodes with a free slot is taken first. -/
inductive LoadBalance
  /-- The first one in the order of the view. -/
  | none
  /-- The one with the fewest active attempts. -/
  | tasks
deriving DecidableEq, Repr

namespace LoadBalance

/-- The name in configuration files. -/
def name : LoadBalance → String
  | none => "NONE"
  | tasks => "TASKS"

/-- The mode with a name. -/
def ofName? : String → Option LoadBalance
  | "NONE" => some none
  | "TASKS" => some tasks
  | _ => Option.none

end LoadBalance

/-- How a hybrid input is estimated while its producer has not finished. -/
inductive PartialStatistics
  /-- By the parallelism of the producer. -/
  | producerParallelism
  /-- By the bytes of the finished tasks, scaled up to all of them. -/
  | extrapolate
deriving DecidableEq, Repr

namespace PartialStatistics

/-- The name in configuration files. -/
def name : PartialStatistics → String
  | producerParallelism => "producer-parallelism"
  | extrapolate => "extrapolate"

/-- The estimate with a name. -/
def ofName? : String → Option PartialStatistics
  | "producer-parallelism" => some producerParallelism
  | "extrapolate" => some extrapolate
  | _ => none

end PartialStatistics

/-! ## Settings -/

/-- How the parallelism of a vertex is decided. -/
@[ext] structure AutoParallelism where
  /-- Whether it is decided from data volumes at all. -/
  enabled : Bool := true
  /-- The least parallelism of a vertex without a bound of its own. -/
  minParallelism : Nat := 1
  /-- The largest one, if it is configured. -/
  maxParallelism : Option Nat := none
  /-- The number of bytes a task should process. -/
  avgDataVolumePerTask : Nat := 16 * ByteSize.megabyte
  /-- The parallelism of sources, if it is configured. -/
  defaultSourceParallelism : Option Nat := none
  /-- How an unfinished hybrid input is estimated. -/
  partialStatistics : PartialStatistics := .producerParallelism
deriving DecidableEq

/-- The largest parallelism when none is configured. -/
def AutoParallelism.defaultUpperBound : Nat := 128

/-- The largest parallelism of a vertex without a bound of its own. -/
def AutoParallelism.upperBound (a : AutoParallelism) : Nat :=
  a.maxParallelism.getD defaultUpperBound

/-- Speculative execution of slow tasks. -/
@[ext] structure SpeculativeConfig where
  /-- Whether slow tasks get further attempts. -/
  enabled : Bool := false
  /-- The largest number of active attempts of a task. -/
  maxConcurrentExecutions : Nat := 2
  /-- How long the node of a slow attempt is avoided. -/
  blockSlowNodeDuration : Duration := .ofSeconds 60
deriving DecidableEq

/-- When a running attempt counts as slow. -/
@[ext] structure DetectorConfig where
  /-- The time between two checks. -/
  checkInterval : Duration := .ofSeconds 1
  /-- The least threshold. -/
  lowerBound : Duration := .ofSeconds 60
  /-- The factor between the median of the finished tasks and the threshold. -/
  multiplier : Float := 1.5
  /-- The share of the tasks of a vertex that must have finished. -/
  ratio : Float := 0.75
deriving DecidableEq

/-- When a job starts and when it is rescaled. -/
@[ext] structure RescaleConfig where
  /-- The least change of parallelism worth a rescale. -/
  minParallelismIncrease : Nat := 1
  /-- How long to wait for resources before the job starts with less or fails. -/
  waitTimeout : WaitTimeout := .after (.ofSeconds 300)
  /-- How long sufficient resources must stay as they are before the job starts with less. -/
  stabilizationTimeout : Duration := .ofSeconds 10
  /-- The least time between two rescales. -/
  intervalMin : Duration := .ofSeconds 30
  /-- The time after which a changed view forces a rescale, if any. -/
  intervalMax : Option Duration := none
deriving DecidableEq

/-- The slots a job uses. -/
@[ext] structure SlotConfig where
  /-- The largest number of slots the job may use, if any. -/
  maxSlots : Option Nat := none
  /-- How long an idle slot is kept; a setting of the pool that owns the slots. -/
  idleTimeout : Duration := .ofSeconds 50
  /-- How long a task may wait for a slot. -/
  requestTimeout : Duration := .ofSeconds 300
deriving DecidableEq

/-- All settings of the scheduler of a job. -/
@[ext] structure Config where
  /-- The parallelism of a vertex when nothing else decides it. -/
  defaultParallelism : Nat := 1
  /-- How the parallelism of a vertex is decided. -/
  auto : AutoParallelism := {}
  /-- Speculative execution of slow tasks. -/
  speculative : SpeculativeConfig := {}
  /-- When a running attempt counts as slow. -/
  detector : DetectorConfig := {}
  /-- When a job starts and when it is rescaled. -/
  rescale : RescaleConfig := {}
  /-- The slots a job uses. -/
  slots : SlotConfig := {}
  /-- When the consumer of a hybrid edge may be scheduled. -/
  consumeConstraint : ConsumeConstraint := .unfinishedProducers
  /-- Which node is taken first. -/
  loadBalance : LoadBalance := .none
deriving DecidableEq

/-- The settings that hold when nothing is configured. -/
def Config.standard : Config := {}

instance : Inhabited Config := ⟨Config.standard⟩

/-! ## Errors -/

/-- Why settings, or a job under these settings, are refused. -/
inductive ConfigError
  /-- The file with the settings cannot be read. -/
  | unreadable (path reason : String)
  /-- The text is not a table of settings. -/
  | malformed
  /-- A setting has a value outside its range. -/
  | invalidValue (key value : String)
  /-- A parallelism is zero. -/
  | zeroParallelism (key : String)
  /-- The least parallelism is larger than the largest. -/
  | invertedBounds (scope : String) (min max : Nat)
  /-- A fixed parallelism lies outside the bounds of its vertex. -/
  | fixedOutOfBounds (vertex : VertexId) (parallelism min max : Nat)
  /-- The graph of the job cannot be run. -/
  | graph (e : GraphError)
deriving DecidableEq, Repr

/-- The text reported for refused settings. -/
def ConfigError.message : ConfigError → String
  | .unreadable path reason => s!"failed to read config {path}: {reason}"
  | .malformed => "failed to parse config: TOML parse error"
  | .invalidValue key value => s!"invalid value for `{key}`: {value}"
  | .zeroParallelism key => s!"`{key}` must be at least 1; zero parallelism is not allowed"
  | .invertedBounds scope min max =>
    s!"min parallelism {min} exceeds max parallelism {max} for {scope}"
  | .fixedOutOfBounds vertex parallelism min max =>
    s!"vertex {vertex} has fixed parallelism {parallelism} outside [{min}, {max}]"
  | .graph e => s!"invalid job graph: {e.message}"

end AdaptiveBatch
