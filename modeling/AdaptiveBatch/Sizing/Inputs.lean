import AdaptiveBatch.Config.Basic

/-! # Input statistics

What is known about the data that a vertex will consume: for each of its input edges, how many tasks
of the producer have finished and how much they have produced.

* **`InputStatistics`** — the knowledge about one edge;
* **`Estimate`**, **`EstimatePolicy`** — what an unfinished hybrid input counts for;
* **`InputStatistics.contribution`** — what any input counts for. -/

namespace AdaptiveBatch

/-- What is known about one input of a vertex. -/
@[ext] structure InputStatistics where
  /-- The producer. -/
  producer : VertexId
  /-- How the data moves. -/
  exchange : ExchangeMode
  /-- The parallelism of the producer. -/
  producerParallelism : Nat
  /-- The number of its tasks that have finished. -/
  finishedProducers : Nat := 0
  /-- The bytes these tasks have produced. -/
  producedBytes : Nat := 0
deriving DecidableEq, Repr

namespace InputStatistics

/-- The statistics once every task has finished, with so many bytes. -/
def withAllFinished (i : InputStatistics) (bytes : Nat) : InputStatistics :=
  { i with finishedProducers := i.producerParallelism, producedBytes := bytes }

/-- The statistics once some of the tasks have finished, with so many bytes. -/
def withFinished (i : InputStatistics) (finished bytes : Nat) : InputStatistics :=
  { i with finishedProducers := min finished i.producerParallelism, producedBytes := bytes }

/-- Whether every task of the producer has finished. -/
def isComplete (i : InputStatistics) : Bool :=
  decide (0 < i.producerParallelism) && decide (i.producerParallelism ≤ i.finishedProducers)

end InputStatistics

/-! ## Estimates -/

/-- What an unfinished hybrid input counts for. -/
inductive Estimate
  /-- So many bytes, added to those of the other inputs. -/
  | bytes (n : Nat)
  /-- A lower bound of the parallelism. -/
  | parallelism (n : Nat)
deriving DecidableEq, Repr

/-- A rule for unfinished hybrid inputs. -/
structure EstimatePolicy where
  /-- The name of the rule. -/
  name : String
  /-- The rule. -/
  estimate : InputStatistics → Estimate

namespace PartialStatistics

/-- The estimate of an unfinished hybrid input. An extrapolation is a floored 64-bit quotient, and
takes the parallelism of the producer while none of its tasks has finished. -/
def estimate : PartialStatistics → InputStatistics → Estimate
  | producerParallelism, i => .parallelism i.producerParallelism
  | extrapolate, i =>
    if i.finishedProducers = 0 then .parallelism i.producerParallelism
    else .bytes (Word.saturate (i.producedBytes * i.producerParallelism / i.finishedProducers))

/-- The rule that a setting stands for. -/
def policy (s : PartialStatistics) : EstimatePolicy := { name := s.name, estimate := s.estimate }

end PartialStatistics

/-! ## Contributions -/

/-- What an input counts for; a pipelined one counts for nothing. -/
def InputStatistics.contribution (policy : EstimatePolicy) (i : InputStatistics) :
    Option Estimate :=
  match i.exchange with
  | .pipelined => none
  | .blocking => some (.bytes i.producedBytes)
  | .hybrid =>
    if i.isComplete then some (.bytes i.producedBytes) else some (policy.estimate i)

/-- The bytes of an estimate. -/
def Estimate.volume : Estimate → Nat
  | bytes n => n
  | parallelism _ => 0

/-- The lower bound of an estimate. -/
def Estimate.floor : Estimate → Nat
  | bytes _ => 0
  | parallelism n => n

end AdaptiveBatch
