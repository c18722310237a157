import AdaptiveBatch.Job.Reader
import AdaptiveBatch.Numeric.ByteSize
import AdaptiveBatch.Scheduler.Readiness
import AdaptiveBatch.Text.Display

/-! # Plans of jobs

A plan says what a job will ask for before anything runs: the slots it needs and would like, the
bounds of its vertices, and the parallelism of those for which it does not depend on what others
produce.

* **`JobPlan`**, **`VertexPlan`** — the plan;
* **`planJob`** — the plan of a job, on so many equal slots or without a limit;
* **`JobPlan.format`**, **`JobPlan.toDatum`** — the plan in words and as data. -/

namespace AdaptiveBatch

open Text

/-- What a vertex will ask for. -/
@[ext] structure VertexPlan where
  /-- The vertex. -/
  vertex : VertexId
  /-- Whether it is a source. -/
  isSource : Bool
  /-- Whether its parallelism may change. -/
  isElastic : Bool
  /-- The bounds of its parallelism. -/
  bounds : Bounds
  /-- Its parallelism, unless that depends on its inputs. -/
  parallelism : Option Nat
  /-- Its inputs. -/
  inputs : List JobEdge
deriving DecidableEq, Repr

/-- What a job will ask for. -/
@[ext] structure JobPlan where
  /-- The name of the job. -/
  job : String
  /-- The number of slots it is planned for, if it is limited. -/
  slots : Option Nat
  /-- The slots without which it cannot start. -/
  requiredSlots : Nat
  /-- The slots its sources would use. -/
  desiredSlots : Nat
  /-- The bytes that a task should process. -/
  avgDataVolumePerTask : Nat
  /-- The vertices in the order of dependencies. -/
  vertices : List VertexPlan
deriving DecidableEq, Repr

/-- The plan of a vertex of a submitted job. -/
def Scheduler.planVertex (s : Scheduler) (available : Option ResourceView) (v : JobVertex) :
    Except Interruption VertexPlan := do
  let isSource := s.job.isSource v.id
  let parallelism ←
    if isSource || v.parallelism.isSome then some <$> s.decideParallelism v.id available
    else pure none
  pure {
    vertex := v.id
    isSource
    isElastic := s.sizing.isElastic v
    bounds := s.sizing.bounds v
    parallelism
    inputs := s.job.inputsOf v.id }

/-- The plan of a job on a node with so many slots, or without a limit. -/
def planJob (config : Config) (job : JobGraph) (slots : Option Nat) :
    Except Interruption JobPlan := do
  let s ← (Scheduler.submit config job .willing .origin).mapError .refused
  let available := slots.map fun n => { slotsPerTaskManager := n : MiniCluster }.view
  let vertices := s.order.filterMap s.job.get?
  let desired ← (vertices.filter fun v => s.job.isSource v.id).mapM fun v =>
    s.decideParallelism v.id none
  let plans ← vertices.mapM (s.planVertex available)
  pure {
    job := job.name
    slots
    requiredSlots := s.controller.requiredSlots
    desiredSlots := largest desired
    avgDataVolumePerTask := config.auto.avgDataVolumePerTask
    vertices := plans }

/-! ## As text -/

namespace JobPlan

/-- An input of a vertex. -/
def inputText (e : JobEdge) : String := s!"{e.source} ({e.exchange.label})"

/-- The lines of a vertex. -/
def vertexText (v : VertexPlan) : String :=
  let kind := if v.isSource then "source" else "vertex"
  let parallelism := v.parallelism.elim "runtime" toString
  let fixed := if v.isElastic then "" else " fixed"
  s!"  {padRight 20 v.vertex} {padRight 6 kind} parallelism {padRight 8 parallelism}" ++
    s!" bounds [{v.bounds.min}, {v.bounds.max}]{fixed}\n" ++
    String.join (v.inputs.map fun e => s!"      <- {inputText e}\n")

/-- The plan in words. -/
def format (p : JobPlan) : String :=
  let offered := p.slots.elim "" fun n => s!"{n} offered, "
  s!"Job: {p.job}\n" ++
    s!"Slots: {offered}{p.requiredSlots} required, {p.desiredSlots} desired\n" ++
    s!"Data volume per task: {ByteSize.format p.avgDataVolumePerTask}\n\n" ++
    String.join (p.vertices.map vertexText)

/-! ## As data -/

/-- Encodes the plan of a vertex. -/
def vertexToDatum (v : VertexPlan) : Datum :=
  .table [("vertex", .text v.vertex), ("source", .bool v.isSource), ("elastic", .bool v.isElastic),
    ("min", .int v.bounds.min), ("max", .int v.bounds.max),
    ("parallelism", .ofNat? v.parallelism),
    ("inputs", .list (v.inputs.map fun e => .text (inputText e)))]

/-- Encodes a plan. -/
def toDatum (p : JobPlan) : Datum :=
  .table [("job", .text p.job), ("slots", .ofNat? p.slots),
    ("required_slots", .int p.requiredSlots), ("desired_slots", .int p.desiredSlots),
    ("avg_data_volume_per_task", .int p.avgDataVolumePerTask),
    ("vertices", .list (p.vertices.map vertexToDatum))]

end JobPlan

end AdaptiveBatch
