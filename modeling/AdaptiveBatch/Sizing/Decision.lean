import AdaptiveBatch.Cluster.View
import AdaptiveBatch.Sizing.Inputs

/-! # Deciding the parallelism of a vertex

The rules, in order: a parallelism set by the user is kept; without automatic decisions the job
default is taken; a source takes the configured parallelism of sources, else the configured largest
one, else the job default; any other vertex takes as many tasks as its input bytes need, and at
least as many as an estimate asks for. Whatever is decided automatically is moved into the bounds of
the vertex.

* **`Sizing`** — the settings that decide; **`Sizing.bounds`**, **`Sizing.validateVertex`** — the
  bounds of a vertex;
* **`Sizing.decide`** — the decision and its **`Reason`**;
* **`Sizing.decideWithin`** — the same for the slots of a view. -/

namespace AdaptiveBatch

/-- The least and the largest parallelism of a vertex. -/
@[ext] structure Bounds where
  /-- The least one. -/
  min : Nat
  /-- The largest one. -/
  max : Nat
deriving DecidableEq, Repr

namespace Bounds

/-- The parallelism raised to the least one, then lowered to the largest one. -/
def clamp (b : Bounds) (target : Nat) : Nat := Min.min (Max.max target b.min) b.max

/-- Whether a parallelism lies within the bounds. -/
def contains (b : Bounds) (parallelism : Nat) : Bool :=
  decide (b.min ≤ parallelism) && decide (parallelism ≤ b.max)

/-- Bounds contain a parallelism iff it lies between `b.min` and `b.max`, both included. -/
theorem contains_iff {b : Bounds} {parallelism : Nat} :
    b.contains parallelism = true ↔ b.min ≤ parallelism ∧ parallelism ≤ b.max := by
  simp [contains]

/-- Clamping to bounds that are not empty, `b.min ≤ b.max`, lands between them. -/
theorem contains_clamp {b : Bounds} (h : b.min ≤ b.max) (target : Nat) :
    b.contains (b.clamp target) = true := by
  rw [contains_iff, clamp]
  exact ⟨Nat.le_min.2 ⟨Nat.le_max_right target b.min, h⟩, Nat.min_le_right _ _⟩

end Bounds

/-- Which rule decided a parallelism. -/
inductive Reason
  /-- The user set it. -/
  | fixed
  /-- Automatic decisions are switched off. -/
  | disabled
  /-- The configured parallelism of sources. -/
  | sourceDefault
  /-- The configured largest parallelism. -/
  | sourceMax
  /-- The default of the job. -/
  | jobDefault
  /-- The input bytes. -/
  | dataVolume (bytes : Nat)
  /-- An estimate that asks for more than the input bytes need. -/
  | hybridEstimate (bytes estimate : Nat)
  /-- Nothing is known about the input. -/
  | noStatistics
deriving DecidableEq, Repr

namespace Reason

/-- The rule in words. -/
def message : Reason → String
  | fixed => "fixed"
  | disabled => "auto-parallelism disabled"
  | sourceDefault => "default source parallelism"
  | sourceMax => "max parallelism"
  | jobDefault => "job default"
  | dataVolume bytes => s!"{bytes} input bytes"
  | hybridEstimate bytes estimate => s!"{bytes} input bytes, hybrid estimate {estimate}"
  | noStatistics => "no upstream statistics"

/-- Whether the rule gives a parallelism that does not depend on the resources. -/
def isStatic : Reason → Bool
  | fixed => true
  | disabled => true
  | _ => false

end Reason

/-- A decided parallelism. -/
structure Decision where
  /-- The parallelism. -/
  parallelism : Nat
  /-- The rule that decided it. -/
  reason : Reason
deriving DecidableEq, Repr

/-- The settings that decide the parallelism of the vertices of a job. -/
structure Sizing where
  /-- The settings of automatic decisions. -/
  auto : AutoParallelism
  /-- The default of the job. -/
  defaultParallelism : Nat
  /-- The rule for unfinished hybrid inputs. -/
  policy : EstimatePolicy

namespace Sizing

/-- The sizing that a configuration asks for. -/
def ofConfig (c : Config) : Sizing where
  auto := c.auto
  defaultParallelism := c.defaultParallelism
  policy := c.auto.partialStatistics.policy

/-- The bounds of a vertex: its own ones, or the configured ones. -/
def bounds (s : Sizing) (v : JobVertex) : Bounds where
  min := v.minParallelism.getD s.auto.minParallelism
  max := v.maxParallelism.getD s.auto.upperBound

/-- Refuses a vertex whose bounds or whose fixed parallelism cannot be honoured. -/
def validateVertex (s : Sizing) (v : JobVertex) : Except ConfigError Unit :=
  let b := s.bounds v
  if b.min = 0 then .error (.zeroParallelism "min-parallelism")
  else if b.max < b.min then .error (.invertedBounds s!"vertex {v.id}" b.min b.max)
  else match v.parallelism with
    | none => .ok ()
    | some p => if b.contains p then .ok () else .error (.fixedOutOfBounds v.id p b.min b.max)

/-- Whether the parallelism of a vertex may change while the job runs. -/
def isElastic (s : Sizing) (v : JobVertex) : Bool := v.parallelism.isNone && s.auto.enabled

/-- The target of a source and the rule that gives it. -/
def sourceTarget (s : Sizing) : Nat × Reason :=
  match s.auto.defaultSourceParallelism, s.auto.maxParallelism with
  | some p, _ => (p, .sourceDefault)
  | none, some max => (max, .sourceMax)
  | none, none => (s.defaultParallelism, .jobDefault)

/-- The bytes that the inputs count for, as a 64-bit count. -/
def volume (s : Sizing) (inputs : List InputStatistics) : Nat :=
  Word.saturate (total ((inputs.filterMap (·.contribution s.policy)).map Estimate.volume))

/-- The largest lower bound that the inputs ask for. -/
def estimate (s : Sizing) (inputs : List InputStatistics) : Nat :=
  largest ((inputs.filterMap (·.contribution s.policy)).map Estimate.floor)

/-- The number of tasks that so many bytes need. -/
def tasksFor (s : Sizing) (bytes : Nat) : Nat :=
  let perTask := max s.auto.avgDataVolumePerTask 1
  HalfWord.saturate ((bytes + (perTask - 1)) / perTask)

/-- The parallelism of a vertex with the given inputs; no input marks a source. -/
def decide (s : Sizing) (v : JobVertex) (inputs : List InputStatistics) : Decision :=
  match v.parallelism with
  | some p => { parallelism := p, reason := .fixed }
  | none =>
    let b := s.bounds v
    if !s.auto.enabled then { parallelism := b.clamp s.defaultParallelism, reason := .disabled }
    else if inputs.isEmpty then
      { parallelism := b.clamp s.sourceTarget.1, reason := s.sourceTarget.2 }
    else if (inputs.filterMap (·.contribution s.policy)).isEmpty then
      { parallelism := b.clamp s.defaultParallelism, reason := .noStatistics }
    else
      let bytes := s.volume inputs
      let estimate := s.estimate inputs
      let needed := s.tasksFor bytes
      { parallelism := b.clamp (max needed estimate)
        reason := if needed < estimate then .hybridEstimate bytes estimate else .dataVolume bytes }

/-- The decided parallelism, lowered to the number of slots but not below the least one of the
vertex; a parallelism that does not depend on the resources is kept. -/
def decideWithin (s : Sizing) (v : JobVertex) (inputs : List InputStatistics)
    (available : Option ResourceView) : Nat :=
  let d := s.decide v inputs
  match available with
  | none => d.parallelism
  | some view =>
    if d.reason.isStatic then d.parallelism
    else max (min d.parallelism view.slotCount) (s.bounds v).min

end Sizing

end AdaptiveBatch
