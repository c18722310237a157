import AdaptiveBatch.Sizing.Decision
import Std.Data.ExtTreeMap

/-! # Requirements, plans and requests

* **`Requirement`** — how few and how many tasks a vertex can run as;
* **`ParallelismPlan`** — a parallelism for each of some vertices, and the slots it takes;
* **`ScaleRequest`**, **`ScalingDecision`** — a change of the plan, and when and why it was
  decided. -/

namespace AdaptiveBatch

/-- How many tasks a vertex runs as. -/
@[ext] structure Requirement where
  /-- As few tasks as it accepts. -/
  min : Nat
  /-- As many tasks as it would get from an unlimited number of slots. -/
  desired : Nat
  /-- Whether the number may change while the job runs. -/
  elastic : Bool
deriving DecidableEq, Repr

namespace Requirement

/-- A vertex that always runs as the same number of tasks. -/
def fixed (parallelism : Nat) : Requirement :=
  { min := parallelism, desired := parallelism, elastic := false }

/-- A vertex that runs as a number of tasks between two bounds; the lower one prevails. -/
def between (min desired : Nat) : Requirement :=
  { min, desired := max desired min, elastic := true }

/-- The number of tasks that so many slots allow, but not fewer than the vertex accepts. -/
def achievable (r : Requirement) (slots : Nat) : Nat :=
  if r.elastic then max (Min.min r.desired slots) r.min else r.desired

/-- Whatever the slots, a requirement with `min ≤ desired` achieves at least `min`. -/
theorem min_le_achievable {r : Requirement} (h : r.min ≤ r.desired) (slots : Nat) :
    r.min ≤ r.achievable slots := by
  unfold achievable
  split
  · exact Nat.le_max_right _ _
  · exact h

/-- Whatever the slots, a requirement with `min ≤ desired` achieves at most `desired`. -/
theorem achievable_le {r : Requirement} (h : r.min ≤ r.desired) (slots : Nat) :
    r.achievable slots ≤ r.desired := by
  unfold achievable
  split
  · exact Nat.max_le.2 ⟨Nat.min_le_left _ _, h⟩
  · exact Nat.le_refl _

/-- A requirement made by `between` has `min ≤ desired`, since `desired` is raised to `min` where it
is smaller. -/
theorem min_le_desired_between (min desired : Nat) :
    (between min desired).min ≤ (between min desired).desired :=
  Nat.le_max_right _ _

end Requirement

/-- The requirement of a vertex with the given inputs. -/
def Sizing.requirement (s : Sizing) (v : JobVertex) (inputs : List InputStatistics) : Requirement :=
  let parallelism := (s.decide v inputs).parallelism
  if s.isElastic v then .between (s.bounds v).min parallelism else .fixed parallelism

/-! ## Plans -/

/-- A parallelism for each of some vertices. -/
abbrev ParallelismPlan := Std.ExtTreeMap VertexId Nat

namespace ParallelismPlan

/-- The number of slots a plan takes: vertices share slots, so the largest parallelism decides. -/
def slots (plan : ParallelismPlan) : Nat := largest (plan.toList.map (·.2))

/-- The parallelism that a plan gives a vertex is at most `plan.slots`, the largest of all. -/
theorem le_slots {plan : ParallelismPlan} {vertex : VertexId} {parallelism : Nat}
    (h : plan[vertex]? = some parallelism) : parallelism ≤ plan.slots :=
  le_largest (List.mem_map.2
    ⟨(vertex, parallelism), Std.ExtTreeMap.mem_toList_iff_getElem?_eq_some.2 h, rfl⟩)

/-- The plan with the entries of another one in place of its own. -/
def override (plan changes : ParallelismPlan) : ParallelismPlan := plan.insertMany changes.toList

end ParallelismPlan

/-! ## Requests -/

/-- Why the parallelism of a job changes. -/
inductive ScaleReason
  /-- Some vertex can grow by as much as is worth a restart. -/
  | increase
  /-- Slots were lost. -/
  | decrease
  /-- The view has been another one for long enough. -/
  | forced
deriving DecidableEq, Repr

/-- The reason in words. -/
def ScaleReason.name : ScaleReason → String
  | .increase => "increase"
  | .decrease => "decrease"
  | .forced => "forced"

/-- A request to restart some vertices with another parallelism. -/
@[ext] structure ScaleRequest where
  /-- The vertices whose parallelism changes. -/
  plan : ParallelismPlan
  /-- Why it changes. -/
  reason : ScaleReason
  /-- When it was decided. -/
  issuedAt : Instant
deriving DecidableEq

/-- The latest decision to change the plan. -/
@[ext] structure ScalingDecision where
  /-- The change. -/
  plan : ParallelismPlan
  /-- When it was decided. -/
  decidedAt : Instant
  /-- The resources it was decided on. -/
  view : ResourceView

end AdaptiveBatch
