import AdaptiveBatch.Config.Basic
import AdaptiveBatch.Json.Reader
import AdaptiveBatch.Toml.Reader
import AdaptiveBatch.Toml.Printer

/-! # Options of a configuration file

A file sets some of the options, in nested sections; durations and sizes are texts there, so that
they carry a unit. **`Options`** holds what a file sets, before anything is resolved or checked.

* **`Options.ofDatum?`** takes the options out of their sections;
* **`Options.toDatum`** puts them back, every section spelled out and every option that is set;
* **`Options.render`** — the text of a file. -/

namespace AdaptiveBatch

open Datum

/-- The options a configuration file sets. -/
@[ext] structure Options where
  /-- `parallelism.default` -/
  defaultParallelism : Option Nat := none
  /-- `execution.batch.adaptive.auto-parallelism.enabled` -/
  autoEnabled : Option Bool := none
  /-- `execution.batch.adaptive.auto-parallelism.min-parallelism` -/
  minParallelism : Option Nat := none
  /-- `execution.batch.adaptive.auto-parallelism.max-parallelism` -/
  maxParallelism : Option Nat := none
  /-- `execution.batch.adaptive.auto-parallelism.avg-data-volume-per-task` -/
  avgDataVolumePerTask : Option String := none
  /-- `execution.batch.adaptive.auto-parallelism.default-source-parallelism` -/
  defaultSourceParallelism : Option Nat := none
  /-- `execution.batch.adaptive.auto-parallelism.hybrid-partial-statistics` -/
  partialStatistics : Option PartialStatistics := none
  /-- `execution.batch.speculative.enabled` -/
  speculativeEnabled : Option Bool := none
  /-- `execution.batch.speculative.max-concurrent-executions` -/
  maxConcurrentExecutions : Option Nat := none
  /-- `execution.batch.speculative.block-slow-node-duration` -/
  blockSlowNodeDuration : Option String := none
  /-- `slow-task-detector.check-interval` -/
  checkInterval : Option String := none
  /-- `slow-task-detector.execution-time.baseline-lower-bound` -/
  baselineLowerBound : Option String := none
  /-- `slow-task-detector.execution-time.baseline-multiplier` -/
  baselineMultiplier : Option Float := none
  /-- `slow-task-detector.execution-time.baseline-ratio` -/
  baselineRatio : Option Float := none
  /-- `jobmanager.adaptive-scheduler.min-parallelism-increase` -/
  minParallelismIncrease : Option Nat := none
  /-- `jobmanager.adaptive-scheduler.resource-wait-timeout` -/
  resourceWaitTimeout : Option String := none
  /-- `jobmanager.adaptive-scheduler.resource-stabilization-timeout` -/
  resourceStabilizationTimeout : Option String := none
  /-- `jobmanager.adaptive-scheduler.scaling-interval.min` -/
  scalingIntervalMin : Option String := none
  /-- `jobmanager.adaptive-scheduler.scaling-interval.max` -/
  scalingIntervalMax : Option String := none
  /-- `jobmanager.partition.hybrid.partition-data-consume-constraint` -/
  consumeConstraint : Option ConsumeConstraint := none
  /-- `slotmanager.number-of-slots.max` -/
  maxSlots : Option Nat := none
  /-- `slot.idle.timeout` -/
  slotIdleTimeout : Option String := none
  /-- `slot.request.timeout` -/
  slotRequestTimeout : Option String := none
  /-- `taskmanager.load-balance.mode` -/
  loadBalance : Option LoadBalance := none
deriving DecidableEq

namespace Options

/-! ## Decoding -/

/-- A decoder of a section adds the options that the section sets to those found so far. -/
abbrev Section := Options → Datum → Option Options

/-- A section of a record with the given names. -/
def sectionOf (dialect : Dialect) (names : List String)
    (read : Fields → Options → Option Options) : Section :=
  fun found d => (d.fields? dialect names).bind (read · found)

/-- A section that may be missing. -/
def inner (fields : Fields) (name : String) (decode : Section) (found : Options) :
    Option Options := do
  match ← fields.optional name some with
  | none => some found
  | some d => decode found d

/-- A 32-bit count that may be missing. -/
def count (fields : Fields) (name : String) : Option (Option Nat) :=
  fields.optional name (asNat? HalfWord.limit)

/-- A text that may be missing. -/
def text (fields : Fields) (name : String) : Option (Option String) :=
  fields.optional name asText?

variable (dialect : Dialect)

/-- The options of `parallelism`. -/
def parallelismSection : Section := sectionOf dialect ["default"] fun fields found => do
  some { found with defaultParallelism := ← count fields "default" }

/-- The options of `execution.batch.adaptive.auto-parallelism`. -/
def autoParallelismSection : Section :=
  sectionOf dialect
    ["enabled", "min-parallelism", "max-parallelism", "avg-data-volume-per-task",
      "default-source-parallelism", "hybrid-partial-statistics"]
    fun fields found => do
      some { found with
        autoEnabled := ← fields.optional "enabled" asBool?
        minParallelism := ← count fields "min-parallelism"
        maxParallelism := ← count fields "max-parallelism"
        avgDataVolumePerTask := ← text fields "avg-data-volume-per-task"
        defaultSourceParallelism := ← count fields "default-source-parallelism"
        partialStatistics :=
          ← fields.optional "hybrid-partial-statistics"
            (asCase? dialect PartialStatistics.ofName?) }

/-- The options of `execution.batch.adaptive`. -/
def adaptiveSection : Section := sectionOf dialect ["auto-parallelism"] fun fields found =>
  inner fields "auto-parallelism" (autoParallelismSection dialect) found

/-- The options of `execution.batch.speculative`. -/
def speculativeSection : Section :=
  sectionOf dialect ["enabled", "max-concurrent-executions", "block-slow-node-duration"]
    fun fields found => do
      some { found with
        speculativeEnabled := ← fields.optional "enabled" asBool?
        maxConcurrentExecutions := ← count fields "max-concurrent-executions"
        blockSlowNodeDuration := ← text fields "block-slow-node-duration" }

/-- The options of `execution.batch`. -/
def batchSection : Section := sectionOf dialect ["adaptive", "speculative"] fun fields found => do
  inner fields "speculative" (speculativeSection dialect)
    (← inner fields "adaptive" (adaptiveSection dialect) found)

/-- The options of `execution`. -/
def executionSection : Section := sectionOf dialect ["batch"] fun fields found =>
  inner fields "batch" (batchSection dialect) found

/-- The options of `slow-task-detector.execution-time`. -/
def executionTimeSection : Section :=
  sectionOf dialect ["baseline-lower-bound", "baseline-multiplier", "baseline-ratio"]
    fun fields found => do
      some { found with
        baselineLowerBound := ← text fields "baseline-lower-bound"
        baselineMultiplier := ← fields.optional "baseline-multiplier" asFloat?
        baselineRatio := ← fields.optional "baseline-ratio" asFloat? }

/-- The options of `slow-task-detector`. -/
def detectorSection : Section :=
  sectionOf dialect ["check-interval", "execution-time"] fun fields found => do
    let interval ← text fields "check-interval"
    inner fields "execution-time" (executionTimeSection dialect)
      { found with checkInterval := interval }

/-- The options of `jobmanager.adaptive-scheduler.scaling-interval`. -/
def scalingIntervalSection : Section := sectionOf dialect ["min", "max"] fun fields found => do
  some { found with
    scalingIntervalMin := ← text fields "min"
    scalingIntervalMax := ← text fields "max" }

/-- The options of `jobmanager.adaptive-scheduler`. -/
def adaptiveSchedulerSection : Section :=
  sectionOf dialect
    ["min-parallelism-increase", "resource-wait-timeout", "resource-stabilization-timeout",
      "scaling-interval"]
    fun fields found => do
      let increase ← count fields "min-parallelism-increase"
      let wait ← text fields "resource-wait-timeout"
      let stabilization ← text fields "resource-stabilization-timeout"
      inner fields "scaling-interval" (scalingIntervalSection dialect)
        { found with
          minParallelismIncrease := increase
          resourceWaitTimeout := wait
          resourceStabilizationTimeout := stabilization }

/-- The options of `jobmanager.partition.hybrid`. -/
def hybridSection : Section :=
  sectionOf dialect ["partition-data-consume-constraint"] fun fields found => do
    some { found with
      consumeConstraint :=
        ← fields.optional "partition-data-consume-constraint"
          (asCase? dialect ConsumeConstraint.ofName?) }

/-- The options of `jobmanager.partition`. -/
def partitionSection : Section := sectionOf dialect ["hybrid"] fun fields found =>
  inner fields "hybrid" (hybridSection dialect) found

/-- The options of `jobmanager`. -/
def jobManagerSection : Section :=
  sectionOf dialect ["adaptive-scheduler", "partition"] fun fields found => do
    inner fields "partition" (partitionSection dialect)
      (← inner fields "adaptive-scheduler" (adaptiveSchedulerSection dialect) found)

/-- The options of `slotmanager.number-of-slots`. -/
def numberOfSlotsSection : Section := sectionOf dialect ["max"] fun fields found => do
  some { found with maxSlots := ← count fields "max" }

/-- The options of `slotmanager`. -/
def slotManagerSection : Section := sectionOf dialect ["number-of-slots"] fun fields found =>
  inner fields "number-of-slots" (numberOfSlotsSection dialect) found

/-- The options of `slot.idle`. -/
def slotIdleSection : Section := sectionOf dialect ["timeout"] fun fields found => do
  some { found with slotIdleTimeout := ← text fields "timeout" }

/-- The options of `slot.request`. -/
def slotRequestSection : Section := sectionOf dialect ["timeout"] fun fields found => do
  some { found with slotRequestTimeout := ← text fields "timeout" }

/-- The options of `slot`. -/
def slotSection : Section := sectionOf dialect ["idle", "request"] fun fields found => do
  inner fields "request" (slotRequestSection dialect)
    (← inner fields "idle" (slotIdleSection dialect) found)

/-- The options of `taskmanager.load-balance`. -/
def loadBalanceSection : Section := sectionOf dialect ["mode"] fun fields found => do
  some { found with loadBalance := ← fields.optional "mode" (asCase? dialect LoadBalance.ofName?) }

/-- The options of `taskmanager`. -/
def taskManagerSection : Section := sectionOf dialect ["load-balance"] fun fields found =>
  inner fields "load-balance" (loadBalanceSection dialect) found

/-- The options of a whole file. -/
def ofDatum? (d : Datum) : Option Options :=
  sectionOf dialect
    ["parallelism", "execution", "slow-task-detector", "jobmanager", "slotmanager", "slot",
      "taskmanager"]
    (fun fields found => do
      let found ← inner fields "parallelism" (parallelismSection dialect) found
      let found ← inner fields "execution" (executionSection dialect) found
      let found ← inner fields "slow-task-detector" (detectorSection dialect) found
      let found ← inner fields "jobmanager" (jobManagerSection dialect) found
      let found ← inner fields "slotmanager" (slotManagerSection dialect) found
      let found ← inner fields "slot" (slotSection dialect) found
      inner fields "taskmanager" (taskManagerSection dialect) found)
    {} d

/-- Reads the text of a configuration file. -/
def parse? (s : String) : Option Options := (Toml.read? s).bind (ofDatum? Toml.dialect)

/-! ## Encoding -/

/-- An entry for an option that is set. -/
def entry {α : Type} (name : String) (encode : α → Datum) (value : Option α) :
    List (String × Datum) :=
  value.toList.map fun v => (name, encode v)

/-- A count as a value. -/
def ofCount (n : Nat) : Datum := .int n

/-- The options in their sections. -/
def toDatum (o : Options) : Datum :=
  .table [
    ("parallelism", .table (entry "default" ofCount o.defaultParallelism)),
    ("execution", .table [("batch", .table [
      ("adaptive", .table [("auto-parallelism", .table (
        entry "enabled" .bool o.autoEnabled ++
        entry "min-parallelism" ofCount o.minParallelism ++
        entry "max-parallelism" ofCount o.maxParallelism ++
        entry "avg-data-volume-per-task" .text o.avgDataVolumePerTask ++
        entry "default-source-parallelism" ofCount o.defaultSourceParallelism ++
        entry "hybrid-partial-statistics" (fun s : PartialStatistics => .text s.name)
          o.partialStatistics))]),
      ("speculative", .table (
        entry "enabled" .bool o.speculativeEnabled ++
        entry "max-concurrent-executions" ofCount o.maxConcurrentExecutions ++
        entry "block-slow-node-duration" .text o.blockSlowNodeDuration))])]),
    ("slow-task-detector", .table (
      entry "check-interval" .text o.checkInterval ++
      [("execution-time", .table (
        entry "baseline-lower-bound" .text o.baselineLowerBound ++
        entry "baseline-multiplier" .float o.baselineMultiplier ++
        entry "baseline-ratio" .float o.baselineRatio))])),
    ("jobmanager", .table [
      ("adaptive-scheduler", .table (
        entry "min-parallelism-increase" ofCount o.minParallelismIncrease ++
        entry "resource-wait-timeout" .text o.resourceWaitTimeout ++
        entry "resource-stabilization-timeout" .text o.resourceStabilizationTimeout ++
        [("scaling-interval", .table (
          entry "min" .text o.scalingIntervalMin ++ entry "max" .text o.scalingIntervalMax))])),
      ("partition", .table [("hybrid", .table (
        entry "partition-data-consume-constraint" (fun c : ConsumeConstraint => .text c.name)
          o.consumeConstraint))])]),
    ("slotmanager", .table [("number-of-slots", .table (entry "max" ofCount o.maxSlots))]),
    ("slot", .table [
      ("idle", .table (entry "timeout" .text o.slotIdleTimeout)),
      ("request", .table (entry "timeout" .text o.slotRequestTimeout))]),
    ("taskmanager", .table [("load-balance", .table (
      entry "mode" (fun m : LoadBalance => .text m.name) o.loadBalance))])]

/-- The text of a configuration file. -/
def render (o : Options) : String := Toml.render o.toDatum

end Options

end AdaptiveBatch
