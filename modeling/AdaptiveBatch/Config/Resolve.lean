import AdaptiveBatch.Config.Options

/-! # Resolving options

The options of a file replace the standard settings one by one, in a fixed order; the first text
that is not a quantity stops the resolution. The settings are then checked together.

* **`Config.ofOptions`** resolves and checks; **`Config.toOptions`** spells every setting out again;
* **`Config.validate`** — the checks, in the order in which they are reported;
* **`Config.parse`** and **`Config.render`** — the same from and to the text of a file. -/

namespace AdaptiveBatch.Config

/-- The outcome of resolving options: settings, a refusal, or arithmetic that was abandoned. -/
abbrev Resolved := ExceptT ConfigError Checked

/-! ## Checks -/

/-- The checks of the decided parallelisms. -/
def validateAuto (a : AutoParallelism) : Except ConfigError Unit := do
  let key := "execution.batch.adaptive.auto-parallelism"
  if a.minParallelism = 0 then throw (.zeroParallelism s!"{key}.min-parallelism")
  if a.maxParallelism = some 0 then throw (.zeroParallelism s!"{key}.max-parallelism")
  if a.defaultSourceParallelism = some 0 then
    throw (.zeroParallelism s!"{key}.default-source-parallelism")
  if a.upperBound < a.minParallelism then
    throw (.invertedBounds key a.minParallelism a.upperBound)
  if a.avgDataVolumePerTask = 0 then throw (.invalidValue s!"{key}.avg-data-volume-per-task" "0")

/-- The largest multiplier of the baseline. -/
def maxMultiplier : Float := 1000

/-- The checks of the straggler detection. -/
def validateDetector (d : DetectorConfig) : Except ConfigError Unit := do
  if d.checkInterval = .zero then
    throw (.invalidValue "slow-task-detector.check-interval" d.checkInterval.format)
  if !(0 < d.ratio && d.ratio ≤ 1) then
    throw (.invalidValue "slow-task-detector.execution-time.baseline-ratio"
      (FloatText.positional d.ratio))
  if !(0 < d.multiplier && d.multiplier ≤ maxMultiplier) then
    throw (.invalidValue "slow-task-detector.execution-time.baseline-multiplier"
      (FloatText.positional d.multiplier))

/-- The checks of the rescaling. -/
def validateRescale (r : RescaleConfig) : Except ConfigError Unit := do
  if r.minParallelismIncrease = 0 then
    throw (.invalidValue "jobmanager.adaptive-scheduler.min-parallelism-increase" "0")
  if let some max := r.intervalMax then
    if max < r.intervalMin then
      throw (.invalidValue "jobmanager.adaptive-scheduler.scaling-interval.max"
        s!"{max.format} is shorter than scaling-interval.min {r.intervalMin.format}")

/-- Refuses settings the scheduler cannot honour; the first failed check is reported. -/
def validate (c : Config) : Except ConfigError Unit := do
  if c.defaultParallelism = 0 then throw (.zeroParallelism "parallelism.default")
  validateAuto c.auto
  if c.speculative.maxConcurrentExecutions = 0 then
    throw (.invalidValue "execution.batch.speculative.max-concurrent-executions" "0")
  validateDetector c.detector
  validateRescale c.rescale
  if c.slots.maxSlots = some 0 then throw (.invalidValue "slotmanager.number-of-slots.max" "0")

/-! ## Resolution -/

/-- The value of a textual option, or the standard one when the option is not set. -/
def resolveText {α : Type} (key : String) (parse : String → Checked (Option α)) (standard : α)
    (option : Option String) : Resolved α :=
  match option with
  | none => pure standard
  | some s => do
    match ← parse s with
    | some v => pure v
    | none => throw (.invalidValue key s)

/-- Resolves the options of the decided parallelisms. -/
def resolveAuto (o : Options) (s : AutoParallelism) : Resolved AutoParallelism := do
  let volume ← resolveText "execution.batch.adaptive.auto-parallelism.avg-data-volume-per-task"
    (fun s => .ok (ByteSize.parse? s)) s.avgDataVolumePerTask o.avgDataVolumePerTask
  pure {
    enabled := o.autoEnabled.getD s.enabled
    minParallelism := o.minParallelism.getD s.minParallelism
    maxParallelism := o.maxParallelism.or s.maxParallelism
    avgDataVolumePerTask := volume
    defaultSourceParallelism := o.defaultSourceParallelism.or s.defaultSourceParallelism
    partialStatistics := o.partialStatistics.getD s.partialStatistics }

/-- Resolves the options of speculative execution. -/
def resolveSpeculative (o : Options) (s : SpeculativeConfig) : Resolved SpeculativeConfig := do
  let block ← resolveText "execution.batch.speculative.block-slow-node-duration" Duration.parse?
    s.blockSlowNodeDuration o.blockSlowNodeDuration
  pure {
    enabled := o.speculativeEnabled.getD s.enabled
    maxConcurrentExecutions := o.maxConcurrentExecutions.getD s.maxConcurrentExecutions
    blockSlowNodeDuration := block }

/-- Resolves the options of the straggler detection. -/
def resolveDetector (o : Options) (s : DetectorConfig) : Resolved DetectorConfig := do
  let interval ← resolveText "slow-task-detector.check-interval" Duration.parse? s.checkInterval
    o.checkInterval
  let bound ← resolveText "slow-task-detector.execution-time.baseline-lower-bound" Duration.parse?
    s.lowerBound o.baselineLowerBound
  pure {
    checkInterval := interval
    lowerBound := bound
    multiplier := o.baselineMultiplier.getD s.multiplier
    ratio := o.baselineRatio.getD s.ratio }

/-- Resolves the options of the rescaling. -/
def resolveRescale (o : Options) (s : RescaleConfig) : Resolved RescaleConfig := do
  let wait ← resolveText "jobmanager.adaptive-scheduler.resource-wait-timeout" WaitTimeout.parse?
    s.waitTimeout o.resourceWaitTimeout
  let stabilization ← resolveText "jobmanager.adaptive-scheduler.resource-stabilization-timeout"
    Duration.parse? s.stabilizationTimeout o.resourceStabilizationTimeout
  let min ← resolveText "jobmanager.adaptive-scheduler.scaling-interval.min" Duration.parse?
    s.intervalMin o.scalingIntervalMin
  let max ← resolveText "jobmanager.adaptive-scheduler.scaling-interval.max"
    (fun s => (Duration.parse? s).map (Option.map some)) s.intervalMax o.scalingIntervalMax
  pure {
    minParallelismIncrease := o.minParallelismIncrease.getD s.minParallelismIncrease
    waitTimeout := wait
    stabilizationTimeout := stabilization
    intervalMin := min
    intervalMax := max }

/-- Resolves the options of the slots. -/
def resolveSlots (o : Options) (s : SlotConfig) : Resolved SlotConfig := do
  let idle ← resolveText "slot.idle.timeout" Duration.parse? s.idleTimeout o.slotIdleTimeout
  let request ← resolveText "slot.request.timeout" Duration.parse? s.requestTimeout
    o.slotRequestTimeout
  pure { maxSlots := o.maxSlots.or s.maxSlots, idleTimeout := idle, requestTimeout := request }

/-- The settings with the options of a file in place of the standard ones, before they are
checked. -/
def resolve (o : Options) : Resolved Config := do
  let s := standard
  let auto ← resolveAuto o s.auto
  let speculative ← resolveSpeculative o s.speculative
  let detector ← resolveDetector o s.detector
  let rescale ← resolveRescale o s.rescale
  let slots ← resolveSlots o s.slots
  pure {
    defaultParallelism := o.defaultParallelism.getD s.defaultParallelism
    auto, speculative, detector, rescale, slots
    consumeConstraint := o.consumeConstraint.getD s.consumeConstraint
    loadBalance := o.loadBalance.getD s.loadBalance }

/-- Resolves and checks the options of a file. -/
def ofOptions (o : Options) : Resolved Config := do
  let c ← resolve o
  match c.validate with
  | .ok () => pure c
  | .error e => throw e

/-- Every setting as an option. -/
def toOptions (c : Config) : Options where
  defaultParallelism := some c.defaultParallelism
  autoEnabled := some c.auto.enabled
  minParallelism := some c.auto.minParallelism
  maxParallelism := c.auto.maxParallelism
  avgDataVolumePerTask := some (ByteSize.format c.auto.avgDataVolumePerTask)
  defaultSourceParallelism := c.auto.defaultSourceParallelism
  partialStatistics := some c.auto.partialStatistics
  speculativeEnabled := some c.speculative.enabled
  maxConcurrentExecutions := some c.speculative.maxConcurrentExecutions
  blockSlowNodeDuration := some c.speculative.blockSlowNodeDuration.format
  checkInterval := some c.detector.checkInterval.format
  baselineLowerBound := some c.detector.lowerBound.format
  baselineMultiplier := some c.detector.multiplier
  baselineRatio := some c.detector.ratio
  minParallelismIncrease := some c.rescale.minParallelismIncrease
  resourceWaitTimeout := some c.rescale.waitTimeout.format
  resourceStabilizationTimeout := some c.rescale.stabilizationTimeout.format
  scalingIntervalMin := some c.rescale.intervalMin.format
  scalingIntervalMax := c.rescale.intervalMax.map Duration.format
  consumeConstraint := some c.consumeConstraint
  maxSlots := c.slots.maxSlots
  slotIdleTimeout := some c.slots.idleTimeout.format
  slotRequestTimeout := some c.slots.requestTimeout.format
  loadBalance := some c.loadBalance

/-! ## Files -/

/-- The settings of a file with a text. -/
def parse (s : String) : Resolved Config :=
  match Options.parse? s with
  | some o => ofOptions o
  | none => throw .malformed

/-- The text of a file with all settings. -/
def render (c : Config) : String := c.toOptions.render

end AdaptiveBatch.Config
