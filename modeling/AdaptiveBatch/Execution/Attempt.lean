import AdaptiveBatch.Cluster.View
import AdaptiveBatch.Job.Graph
import AdaptiveBatch.Time.Duration

/-! # Execution attempts

A task is executed by attempts, each on one node. An attempt is active until it ends, and it ends
once: finished, failed or canceled.

* **`AttemptId`**, **`AttemptStatus`**, **`Attempt`** — an attempt and how far it has come;
* **`Attempt.run`**, **`Attempt.finish`**, **`Attempt.fail`**, **`Attempt.cancel`** — its steps;
* **`Attempt.elapsed?`**, **`Attempt.duration?`** — the time it has taken. -/

namespace AdaptiveBatch

/-- The identity of an attempt. Attempts of a task are numbered from zero, and a new generation of
the vertex has new identities. -/
@[ext] structure AttemptId where
  /-- The vertex. -/
  vertex : VertexId
  /-- The index of the task. -/
  subtask : Nat
  /-- The generation of the vertex. -/
  generation : Nat
  /-- The index of the attempt. -/
  number : Nat
deriving DecidableEq, Repr

/-- An identity in reports. -/
def AttemptId.text (id : AttemptId) : String :=
  s!"{id.vertex}[{id.subtask}]@g{id.generation}#{id.number}"

/-- How far an attempt has come. -/
inductive AttemptStatus
  /-- It has a node. -/
  | created
  /-- It was handed to its node. -/
  | deploying
  /-- It has reported that it runs. -/
  | running
  /-- It has reported its end. -/
  | finished
  /-- It has reported a failure, or its node refused it. -/
  | failed
  /-- It is not needed any more. -/
  | canceled
deriving DecidableEq, Repr

namespace AttemptStatus

/-- The name in data. -/
def name : AttemptStatus → String
  | created => "CREATED"
  | deploying => "DEPLOYING"
  | running => "RUNNING"
  | finished => "FINISHED"
  | failed => "FAILED"
  | canceled => "CANCELED"

/-- The name in reports. -/
def label : AttemptStatus → String
  | created => "Created"
  | deploying => "Deploying"
  | running => "Running"
  | finished => "Finished"
  | failed => "Failed"
  | canceled => "Canceled"

/-- Whether an attempt holds a slot, or is about to. -/
def isActive : AttemptStatus → Bool
  | created => true
  | deploying => true
  | running => true
  | finished => false
  | failed => false
  | canceled => false

end AttemptStatus

/-- One execution of a task. -/
@[ext] structure Attempt where
  /-- The identity. -/
  id : AttemptId
  /-- The node that hosts it. -/
  node : NodeId
  /-- How far it has come. -/
  status : AttemptStatus := .created
  /-- Whether it was added because another attempt was slow. -/
  speculative : Bool
  /-- When it was created. -/
  createdAt : Instant
  /-- When it reported that it runs. -/
  startedAt : Option Instant := none
  /-- When it ended. -/
  endedAt : Option Instant := none
  /-- The bytes it has read. -/
  inputBytes : Option Nat := none
  /-- The bytes it has produced. -/
  outputBytes : Option Nat := none
deriving DecidableEq, Repr

namespace Attempt

/-- Whether the attempt holds a slot, or is about to. -/
def isActive (a : Attempt) : Bool := a.status.isActive

/-- The time a running attempt has run. -/
def elapsed? (a : Attempt) (now : Instant) : Option Duration :=
  if a.status = .running then a.startedAt.map now.since else none

/-- The time an ended attempt took; one that never ran counts from its creation. -/
def duration? (a : Attempt) : Option Duration :=
  a.endedAt.map (·.since (a.startedAt.getD a.createdAt))

/-! ## Steps -/

/-- The attempt runs; it has run since the first such report. -/
def run (a : Attempt) (now : Instant) : Attempt :=
  if a.status = .running then a else { a with status := .running, startedAt := some now }

/-- The attempt ends with success. The bytes read are those last reported. -/
def finish (a : Attempt) (inputBytes outputBytes : Option Nat) (now : Instant) : Attempt :=
  { a with
    status := .finished
    startedAt := some (a.startedAt.getD a.createdAt)
    endedAt := some now
    inputBytes := inputBytes.or a.inputBytes
    outputBytes }

/-- The attempt ends with a failure. -/
def fail (a : Attempt) (now : Instant) : Attempt :=
  { a with status := .failed, endedAt := some now }

/-- The attempt ends because it is not needed any more; an ended one stays as it is. -/
def cancel (a : Attempt) (now : Instant) : Attempt :=
  if a.isActive then { a with status := .canceled, endedAt := some now } else a

/-- After `run` an attempt has status `running`. -/
@[simp] theorem status_run (a : Attempt) (now : Instant) : (a.run now).status = .running := by
  unfold run
  split
  · next h => exact h
  · rfl

/-- An attempt that `run` has marked is active, so it holds a slot. -/
@[simp] theorem isActive_run (a : Attempt) (now : Instant) : (a.run now).isActive = true := by
  rw [isActive, status_run]
  rfl

/-- Ending an attempt with `finish` leaves it inactive, so its slot is free. -/
@[simp] theorem isActive_finish (a : Attempt) (inputBytes outputBytes : Option Nat)
    (now : Instant) : (a.finish inputBytes outputBytes now).isActive = false :=
  rfl

/-- Ending an attempt with `fail` leaves it inactive. -/
@[simp] theorem isActive_fail (a : Attempt) (now : Instant) : (a.fail now).isActive = false := rfl

/-- Ending an attempt with `cancel` leaves it inactive. -/
@[simp] theorem isActive_cancel (a : Attempt) (now : Instant) :
    (a.cancel now).isActive = false := by
  unfold cancel
  split
  · rfl
  · next h => exact Bool.eq_false_iff.2 h

/-- An attempt keeps its identity `a.id` under `run`. -/
@[simp] theorem id_run (a : Attempt) (now : Instant) : (a.run now).id = a.id := by
  unfold run
  split <;> rfl

/-- An attempt keeps its identity `a.id` under `finish`. -/
@[simp] theorem id_finish (a : Attempt) (inputBytes outputBytes : Option Nat)
    (now : Instant) : (a.finish inputBytes outputBytes now).id = a.id :=
  rfl

/-- An attempt keeps its identity `a.id` under `fail`. -/
@[simp] theorem id_fail (a : Attempt) (now : Instant) : (a.fail now).id = a.id := rfl

/-- An attempt keeps its identity `a.id` under `cancel`. -/
@[simp] theorem id_cancel (a : Attempt) (now : Instant) : (a.cancel now).id = a.id := by
  unfold cancel
  split <;> rfl

end Attempt

end AdaptiveBatch
