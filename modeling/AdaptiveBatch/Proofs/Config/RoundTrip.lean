import AdaptiveBatch.Proofs.Config.Quantities
import AdaptiveBatch.Config.Resolve

/-! # Settings are read back from what is written for them

Every setting is written as an option, so nothing falls back to a standard value when the options
are read again, except what is absent there as well. The textual options are the delicate ones: they
are read back because their values were read from texts, or are standard ones, in the first place
(`Config.Legible`).

* **`Config.legible_of_resolve`** — resolved settings are legible;
* **`Config.resolve_toOptions`** — legible settings are resolved from their own options;
* **`Config.ofOptions_toOptions`** — accepted settings survive being written and read. -/

namespace AdaptiveBatch.Config

/-! ## Resolutions that succeed -/

/-- A resolution `x >>= f` gives `b` iff `x` gives some `a` of which `f` makes `b`. -/
theorem bind_eq_pure_iff {α β : Type} {x : Resolved α} {f : α → Resolved β} {b : β} :
    (x >>= f) = pure b ↔ ∃ a, x = pure a ∧ f a = pure b := by
  constructor
  · intro h
    rcases x with e | e | a
    · cases h
    · cases h
    · exact ⟨a, rfl, h⟩
  · rintro ⟨a, rfl, h⟩
    exact h

/-- Two resolutions that give values are equal iff the values are. -/
theorem pure_eq_pure_iff {α : Type} {a b : α} : (pure a : Resolved α) = pure b ↔ a = b := by
  constructor
  · intro h
    cases h
    rfl
  · rintro rfl
    rfl

/-- A resolution that gives `a` when it is run is `pure a`. -/
theorem eq_pure_of_toOption {α : Type} {x : Resolved α} {a : α}
    (h : (ExceptT.run x).toOption.bind Except.toOption = some a) : x = pure a := by
  rcases x with e | e | b
  · cases h
  · cases h
  · cases h
    rfl

section Text

variable {α : Type} {key s : String} {parse : String → Checked (Option α)} {standard v : α}
  {option : Option String}

/-- What holds of the standard value and of every value that `parse` reads holds of the resolved
one. -/
theorem resolveText_of {P : α → Prop} (hstandard : P standard)
    (hparse : ∀ {s v}, parse s = .ok (some v) → P v)
    (h : resolveText key parse standard option = pure v) : P v := by
  cases option with
  | none =>
    cases h
    exact hstandard
  | some s =>
    simp only [resolveText] at h
    cases hs : parse s with
    | error e =>
      rw [hs] at h
      cases h
    | ok read =>
      rw [hs] at h
      cases read with
      | none => cases h
      | some w =>
        cases h
        exact hparse hs

/-- A resolved duration is `Legible`, if the standard one is. -/
theorem legible_of_resolveText {d e : Duration} (hstandard : e.Legible)
    (h : resolveText key Duration.parse? e option = pure d) : d.Legible :=
  resolveText_of hstandard Duration.legible_of_parse? h

/-- An option that is set to a readable text resolves to what `parse` reads from it. -/
theorem resolveText_some (h : parse s = .ok (some v)) :
    resolveText key parse standard (some s) = pure v := by
  simp only [resolveText]
  rw [h]
  rfl

end Text

/-! ## Settings that a file can give -/

/-- Settings whose durations, timeouts and sizes can be given by texts. -/
structure Legible (c : Config) : Prop where
  /-- The number of bytes a task should process. -/
  volume : c.auto.avgDataVolumePerTask < Word.limit
  /-- How long the node of a slow attempt is avoided. -/
  block : c.speculative.blockSlowNodeDuration.Legible
  /-- The time between two checks. -/
  checkInterval : c.detector.checkInterval.Legible
  /-- The least threshold. -/
  lowerBound : c.detector.lowerBound.Legible
  /-- How long to wait for resources. -/
  wait : c.rescale.waitTimeout.Legible
  /-- How long sufficient resources must stay as they are. -/
  stabilization : c.rescale.stabilizationTimeout.Legible
  /-- The least time between two rescales. -/
  intervalMin : c.rescale.intervalMin.Legible
  /-- The time after which a changed view forces a rescale. -/
  intervalMax : ∀ d ∈ c.rescale.intervalMax, d.Legible
  /-- How long an idle slot is kept. -/
  idle : c.slots.idleTimeout.Legible
  /-- How long a task may wait for a slot. -/
  request : c.slots.requestTimeout.Legible

variable {o : Options} {c : Config}

/-- Resolved settings are `Legible`: the standard ones are, and so is what is read from a text. -/
theorem legible_of_resolve (h : resolve o = pure c) : c.Legible := by
  simp only [resolve, resolveAuto, resolveSpeculative, resolveDetector, resolveRescale,
    resolveSlots, bind_eq_pure_iff, pure_eq_pure_iff] at h
  obtain ⟨_, ⟨volume, hvolume, rfl⟩, _, ⟨block, hblock, rfl⟩,
    _, ⟨interval, hinterval, bound, hbound, rfl⟩,
    _, ⟨wait, hwait, stabilization, hstabilization, min, hmin, max, hmax, rfl⟩,
    _, ⟨idle, hidle, request, hrequest, rfl⟩, rfl⟩ := h
  have hpatience : standard.rescale.waitTimeout.Legible :=
    Duration.legible_ofSeconds (n := 300) (by decide)
  exact {
    volume := resolveText_of (P := (· < Word.limit)) (by decide)
      (fun hread => ByteSize.lt_of_parse? (Except.ok.inj hread)) hvolume
    block := legible_of_resolveText (by decide) hblock
    checkInterval := legible_of_resolveText (by decide) hinterval
    lowerBound := legible_of_resolveText (by decide) hbound
    wait := resolveText_of (P := WaitTimeout.Legible) hpatience WaitTimeout.legible_of_parse? hwait
    stabilization := legible_of_resolveText (by decide) hstabilization
    intervalMin := legible_of_resolveText (by decide) hmin
    intervalMax := by
      apply resolveText_of (P := fun max => ∀ d ∈ max, d.Legible) (by nofun) ?_ hmax
      intro _ _ hmapped
      obtain ⟨_, hread, rfl⟩ := Checked.exists_of_map hmapped
      rintro _ ⟨⟩
      exact Duration.legible_of_parse? hread
    idle := legible_of_resolveText (by decide) hidle
    request := legible_of_resolveText (by decide) hrequest }

/-! ## Reading back

Each group of settings is resolved from what is written for it. What is absent stays absent, since
it is absent from the standard settings too. -/

/-- The group `auto` of `Legible` settings is resolved from the options written for them. -/
theorem resolveAuto_toOptions (h : c.Legible) :
    resolveAuto c.toOptions standard.auto = pure c.auto := by
  have hvolume : resolveText "execution.batch.adaptive.auto-parallelism.avg-data-volume-per-task"
      (fun s => .ok (ByteSize.parse? s)) standard.auto.avgDataVolumePerTask
      (some (ByteSize.format c.auto.avgDataVolumePerTask)) = pure c.auto.avgDataVolumePerTask :=
    resolveText_some (congrArg _ (ByteSize.parse?_format h.volume))
  simp only [resolveAuto, toOptions, hvolume, pure_bind, Option.getD_some]
  simp [standard]

/-- The group `speculative` is resolved from the options written for it, whatever the standard
`s`. -/
theorem resolveSpeculative_toOptions (h : c.Legible) (s : SpeculativeConfig) :
    resolveSpeculative c.toOptions s = pure c.speculative := by
  simp only [resolveSpeculative, toOptions, resolveText_some (Duration.parse?_format h.block),
    pure_bind, Option.getD_some]

/-- The group `detector` is resolved from the options written for it, whatever the standard `s`. -/
theorem resolveDetector_toOptions (h : c.Legible) (s : DetectorConfig) :
    resolveDetector c.toOptions s = pure c.detector := by
  simp only [resolveDetector, toOptions, resolveText_some (Duration.parse?_format h.checkInterval),
    resolveText_some (Duration.parse?_format h.lowerBound), pure_bind, Option.getD_some]

/-- The group `rescale` is resolved from the options written for it. -/
theorem resolveRescale_toOptions (h : c.Legible) :
    resolveRescale c.toOptions standard.rescale = pure c.rescale := by
  have hmax : resolveText "jobmanager.adaptive-scheduler.scaling-interval.max"
      (fun s => (Duration.parse? s).map (Option.map some)) standard.rescale.intervalMax
      (c.rescale.intervalMax.map Duration.format) = pure c.rescale.intervalMax := by
    cases hinterval : c.rescale.intervalMax with
    | none => rfl
    | some d =>
      apply resolveText_some
      rw [Duration.parse?_format (h.intervalMax d hinterval)]
      rfl
  simp only [resolveRescale, toOptions, resolveText_some (WaitTimeout.parse?_format h.wait),
    resolveText_some (Duration.parse?_format h.stabilization),
    resolveText_some (Duration.parse?_format h.intervalMin), hmax, pure_bind, Option.getD_some]

/-- The group `slots` is resolved from the options written for it. -/
theorem resolveSlots_toOptions (h : c.Legible) :
    resolveSlots c.toOptions standard.slots = pure c.slots := by
  simp only [resolveSlots, toOptions, resolveText_some (Duration.parse?_format h.idle),
    resolveText_some (Duration.parse?_format h.request), pure_bind]
  simp [standard]

/-- Settings that are `Legible` are resolved from the options `c.toOptions` written for them. -/
theorem resolve_toOptions (h : c.Legible) : resolve c.toOptions = pure c := by
  simp only [resolve, resolveAuto_toOptions h, resolveSpeculative_toOptions h,
    resolveDetector_toOptions h, resolveRescale_toOptions h, resolveSlots_toOptions h, pure_bind]
  rfl

/-- Settings are accepted when they are resolved by `resolve` and pass `validate`. -/
theorem ofOptions_eq_pure_iff :
    ofOptions o = pure c ↔ resolve o = pure c ∧ c.validate = .ok () := by
  simp only [ofOptions, bind_eq_pure_iff]
  constructor
  · rintro ⟨c', hresolve, h⟩
    cases hvalid : c'.validate with
    | error e =>
      rw [hvalid] at h
      cases h
    | ok _ =>
      rw [hvalid] at h
      cases h
      exact ⟨hresolve, hvalid⟩
  · rintro ⟨hresolve, hvalid⟩
    refine ⟨c, hresolve, ?_⟩
    rw [hvalid]

/-- The settings that options can give are exactly those that are `Legible` and pass `validate`, and
`c.toOptions` are options that give them. -/
theorem exists_ofOptions_iff : (∃ o, ofOptions o = pure c) ↔ c.Legible ∧ c.validate = .ok () := by
  constructor
  · rintro ⟨o, h⟩
    obtain ⟨hresolve, hvalid⟩ := ofOptions_eq_pure_iff.1 h
    exact ⟨legible_of_resolve hresolve, hvalid⟩
  · rintro ⟨hlegible, hvalid⟩
    exact ⟨c.toOptions, ofOptions_eq_pure_iff.2 ⟨resolve_toOptions hlegible, hvalid⟩⟩

/-- **Accepted settings are the settings of their own options.** Options can give exactly the
settings that are `Legible` and pass `validate`. Whatever options give `c`, the options
`c.toOptions` written for it give `c` again, every setting equal; and so does the text `c.render` of
a file, provided that it reads back as the options it was written from. -/
theorem ofOptions_toOptions (c : Config) :
    ((∃ o, ofOptions o = pure c) ↔ c.Legible ∧ c.validate = .ok ()) ∧
      ∀ o, ofOptions o = pure c → ofOptions c.toOptions = pure c ∧
        (Options.parse? c.render = some c.toOptions → parse c.render = pure c) := by
  refine ⟨exists_ofOptions_iff, fun o h => ?_⟩
  obtain ⟨hresolve, hvalid⟩ := ofOptions_eq_pure_iff.1 h
  have hback : ofOptions c.toOptions = pure c :=
    ofOptions_eq_pure_iff.2 ⟨resolve_toOptions (legible_of_resolve hresolve), hvalid⟩
  refine ⟨hback, fun hfile => ?_⟩
  rw [parse, hfile]
  exact hback

/-- A file that sets every option, with quantities in many units, a timeout that never expires, and
all maxima. -/
def sampleFile : Options where
  defaultParallelism := some 4
  autoEnabled := some false
  minParallelism := some 2
  maxParallelism := some 64
  avgDataVolumePerTask := some " 3 MiB"
  defaultSourceParallelism := some 8
  partialStatistics := some .extrapolate
  speculativeEnabled := some true
  maxConcurrentExecutions := some 3
  blockSlowNodeDuration := some "90s"
  checkInterval := some "1500ms"
  baselineLowerBound := some "2 min"
  baselineMultiplier := some 2.5
  baselineRatio := some 0.5
  minParallelismIncrease := some 2
  resourceWaitTimeout := some "-5m"
  resourceStabilizationTimeout := some "0"
  scalingIntervalMin := some "61"
  scalingIntervalMax := some "1H"
  consumeConstraint := some .allProducersFinished
  maxSlots := some 32
  slotIdleTimeout := some "7200s"
  slotRequestTimeout := some "250ms"
  loadBalance := some .tasks

/-- The settings of that file. -/
def sampleTuned : Config where
  defaultParallelism := 4
  auto :=
    { enabled := false, minParallelism := 2, maxParallelism := some 64
      avgDataVolumePerTask := 3 * ByteSize.megabyte, defaultSourceParallelism := some 8
      partialStatistics := .extrapolate }
  speculative :=
    { enabled := true, maxConcurrentExecutions := 3, blockSlowNodeDuration := .ofSeconds 90 }
  detector :=
    { checkInterval := .ofMillis 1500, lowerBound := .ofSeconds 120, multiplier := 2.5, ratio := 0.5 }
  rescale :=
    { minParallelismIncrease := 2, waitTimeout := .forever, stabilizationTimeout := .zero
      intervalMin := .ofSeconds 61, intervalMax := some (.ofSeconds 3600) }
  slots :=
    { maxSlots := some 32, idleTimeout := .ofSeconds 7200, requestTimeout := .ofMillis 250 }
  consumeConstraint := .allProducersFinished
  loadBalance := .tasks

/-- The settings of `sampleFile`, which sets every option, are read back from their own options, and
from the text written for them. -/
theorem ofOptions_toOptions_tuned :
    ofOptions sampleFile = pure sampleTuned ∧ sampleTuned.toOptions ≠ sampleFile ∧
      sampleTuned.Legible ∧ ofOptions sampleTuned.toOptions = pure sampleTuned ∧
        parse sampleTuned.render = pure sampleTuned := by
  have hsettings : ofOptions sampleFile = pure sampleTuned :=
    eq_pure_of_toOption (by decide +kernel)
  have hread : Options.parse? sampleTuned.render = some sampleTuned.toOptions := by
    -- the sections are joined as lists of characters: joined as strings, their text is slow to read
    simp only [Options.parse?, Toml.read?, Toml.readLines?, render, Options.render, Toml.render,
      String.toList_intercalate]
    decide +kernel
  obtain ⟨hgives, hback⟩ := ofOptions_toOptions sampleTuned
  obtain ⟨hoptions, hfile⟩ := hback sampleFile hsettings
  exact ⟨hsettings, by decide +kernel, (hgives.1 ⟨sampleFile, hsettings⟩).1, hoptions, hfile hread⟩

end AdaptiveBatch.Config
