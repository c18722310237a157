import AdaptiveBatch.Scheduler.Basic

/-! # Readiness

A vertex is ready when each of its inputs can be consumed: a blocking one when its producer is
finished, the others when their producer holds its slots, and a hybrid one, if the settings say so,
when its producer is finished. What the producers have reported by then decides its parallelism.

* **`Scheduler.isReady`** — whether a vertex can start;
* **`Scheduler.inputStatistics`**, **`Scheduler.decideParallelism`** — the size it starts with. -/

namespace AdaptiveBatch.Scheduler

/-- Whether an input can be consumed. -/
def inputReady (s : Scheduler) (e : JobEdge) : Bool :=
  match e.exchange with
  | .blocking => s.graph.isFinished e.source
  | .pipelined => s.graph.isFinished e.source || s.graph.isDeployed e.source
  | .hybrid =>
    s.graph.isFinished e.source ||
      (!s.config.consumeConstraint.requiresFinished && s.graph.isDeployed e.source)

/-- Whether every input of a vertex can be consumed. -/
def isReady (s : Scheduler) (vertex : VertexId) : Bool := (s.job.inputsOf vertex).all s.inputReady

/-- What is known about one input. -/
def statisticsOf (s : Scheduler) (e : JobEdge) : Checked InputStatistics :=
  match s.graph.get? e.source with
  | none => pure { producer := e.source, exchange := e.exchange, producerParallelism := 0 }
  | some v => do
    let i : InputStatistics :=
      { producer := e.source, exchange := e.exchange, producerParallelism := v.parallelism }
    match ← v.totalOutput? with
    | some bytes => pure (i.withAllFinished bytes)
    | none =>
      let (finished, bytes) ← v.finishedOutput
      pure (i.withFinished finished bytes)

/-- What is known about the inputs of a vertex. -/
def inputStatistics (s : Scheduler) (vertex : VertexId) : Checked (List InputStatistics) :=
  (s.job.inputsOf vertex).mapM s.statisticsOf

/-- The parallelism a vertex would start with now, for the slots of a view if one is given. -/
def decideParallelism (s : Scheduler) (vertex : VertexId) (available : Option ResourceView) :
    Except Interruption Nat :=
  match s.job.get? vertex with
  | none => .error (.refused (.unknownVertex vertex))
  | some v => do
    let inputs ← (s.inputStatistics vertex).mapError Interruption.abandoned
    pure (s.sizing.decideWithin v inputs available)

end AdaptiveBatch.Scheduler
