import AdaptiveBatch.Scheduler.Basic

/-! # Summaries

* **`JobSummary`**, **`VertexSummary`** — how far a job has come, as numbers;
* **`Scheduler.summary`** — the summary of a job; **`JobSummary.toDatum`** encodes it. -/

namespace AdaptiveBatch

/-- How far a vertex has come. -/
@[ext] structure VertexSummary where
  /-- The vertex. -/
  vertex : VertexId
  /-- Its generation. -/
  generation : Nat
  /-- Its number of tasks. -/
  parallelism : Nat
  /-- The number of finished tasks. -/
  finishedTasks : Nat
  /-- The number of attempts. -/
  attempts : Nat
  /-- The number of attempts added for slow tasks. -/
  speculativeAttempts : Nat
  /-- The number of these that won their task. -/
  speculativeWins : Nat
  /-- The bytes the finished tasks have produced. -/
  outputBytes : Nat
deriving DecidableEq, Repr

/-- How far a job has come. -/
@[ext] structure JobSummary where
  /-- The name of the job. -/
  job : String
  /-- Where it stands. -/
  status : JobStatus
  /-- Why it has failed. -/
  failure : Option String
  /-- The number of slots it may use. -/
  slots : Nat
  /-- The number of restarts with another parallelism. -/
  rescales : Nat
  /-- The number of attempts added for slow tasks. -/
  speculativeLaunches : Nat
  /-- The vertices that have started, in the order of dependencies. -/
  vertices : List VertexSummary
deriving DecidableEq, Repr

/-- How far a vertex has come. -/
def VertexExecution.summary (v : VertexExecution) : Checked VertexSummary := do
  let (_, outputBytes) ← v.finishedOutput
  pure {
    vertex := v.vertex
    generation := v.generation
    parallelism := v.parallelism
    finishedTasks := v.finishedCount
    attempts := v.attempts.length
    speculativeAttempts := v.attempts.countP (·.speculative)
    speculativeWins := v.winners.countP (·.speculative)
    outputBytes }

/-- How far a job has come. -/
def Scheduler.summary (s : Scheduler) : Checked JobSummary := do
  let vertices ← (s.order.filterMap s.graph.get?).mapM VertexExecution.summary
  pure {
    job := s.job.name
    status := s.status
    failure := s.failure.map (·.message)
    slots := s.view.slotCount
    rescales := s.rescales
    speculativeLaunches := s.speculativeLaunches
    vertices }

/-! ## As data -/

/-- Encodes the summary of a vertex. -/
def VertexSummary.toDatum (v : VertexSummary) : Datum :=
  .table [("vertex", .text v.vertex), ("generation", .int v.generation),
    ("parallelism", .int v.parallelism), ("finished_tasks", .int v.finishedTasks),
    ("attempts", .int v.attempts), ("speculative_attempts", .int v.speculativeAttempts),
    ("speculative_wins", .int v.speculativeWins), ("output_bytes", .int v.outputBytes)]

/-- Encodes the summary of a job. -/
def JobSummary.toDatum (s : JobSummary) : Datum :=
  .table [("job", .text s.job), ("status", .text s.status.name),
    ("failure", (s.failure.map Datum.text).getD .null), ("slots", .int s.slots),
    ("rescales", .int s.rescales), ("speculative_launches", .int s.speculativeLaunches),
    ("vertices", .list (s.vertices.map VertexSummary.toDatum))]

end AdaptiveBatch
