import AdaptiveBatch.Execution.Attempt

/-! # Tasks and vertices in execution

A vertex runs as as many tasks as its parallelism says. A task is finished when one of its attempts
has won; it is pending when it is neither finished nor held by an active attempt. A vertex that
changes its parallelism starts over with a new generation of tasks.

* **`Task`**, **`VertexExecution`** — one generation of a vertex;
* **`VertexExecution.winnersByEndTime`**, **`VertexExecution.finishedOutput`** — what its finished
  tasks tell. -/

namespace AdaptiveBatch

/-- One of the parallel tasks of a vertex. -/
@[ext] structure Task where
  /-- The index. -/
  subtask : Nat
  /-- The attempts in the order of their creation. -/
  attempts : List Attempt := []
  /-- The number of the attempt that finished. -/
  winner : Option Nat := none
  /-- When the task could be executed first. -/
  createdAt : Instant
deriving DecidableEq, Repr

namespace Task

/-- Whether an attempt has finished. -/
def isFinished (t : Task) : Bool := t.winner.isSome

/-- The attempt that finished. -/
def winningAttempt? (t : Task) : Option Attempt := t.winner.bind (t.attempts[·]?)

/-- The attempts that hold a slot. -/
def activeAttempts (t : Task) : List Attempt := t.attempts.filter Attempt.isActive

/-- The number of attempts that hold a slot. -/
def activeCount (t : Task) : Nat := t.activeAttempts.length

/-- The nodes of the attempts that hold a slot. -/
def activeNodes (t : Task) : List NodeId := t.activeAttempts.map (·.node)

/-- Whether the task needs a slot. -/
def isPending (t : Task) : Bool := !t.isFinished && t.activeAttempts.isEmpty

/-- The active attempts of a task are those of `t.attempts` for which `isActive` holds. -/
theorem mem_activeAttempts {t : Task} {a : Attempt} :
    a ∈ t.activeAttempts ↔ a ∈ t.attempts ∧ a.isActive = true := by
  rw [activeAttempts, List.mem_filter]

/-- A task is pending iff it has neither a `winner` nor an active attempt. -/
theorem isPending_iff {t : Task} : t.isPending = true ↔
    t.winner = none ∧ t.activeAttempts = [] := by
  simp [isPending, isFinished]

/-- A pending task holds no slot: its `activeCount` is `0`. -/
theorem activeCount_of_isPending {t : Task} (h : t.isPending = true) : t.activeCount = 0 := by
  rw [activeCount, (isPending_iff.1 h).2, List.length_nil]

/-! ## Steps -/

/-- Changes the attempt with a number. -/
def modifyAttempt (t : Task) (number : Nat) (f : Attempt → Attempt) : Task :=
  { t with attempts := t.attempts.modify number f }

/-- The attempts that hold a slot beside the one with a number. -/
def rivals (t : Task) (number : Nat) : List Attempt :=
  t.activeAttempts.filter (·.id.number ≠ number)

/-- An attempt finishes and wins the task; its rivals are canceled. -/
def win (t : Task) (number : Nat) (inputBytes outputBytes : Option Nat) (now : Instant) : Task :=
  { t with
    attempts := t.attempts.map fun a =>
      if a.id.number = number then a.finish inputBytes outputBytes now else a.cancel now
    winner := some number }

/-- A won task holds no slot: `win` finishes the attempt `number` and cancels all others, so
`activeAttempts` is `[]`. -/
theorem activeAttempts_win (t : Task) (number : Nat) (inputBytes outputBytes : Option Nat)
    (now : Instant) : (t.win number inputBytes outputBytes now).activeAttempts = [] := by
  rw [List.eq_nil_iff_forall_not_mem]
  intro a ha
  rw [mem_activeAttempts] at ha
  obtain ⟨hmem, hactive⟩ := ha
  obtain ⟨b, _, rfl⟩ := List.mem_map.1 hmem
  split at hactive <;> simp at hactive

end Task

/-- The current generation of a vertex. -/
@[ext] structure VertexExecution where
  /-- The vertex. -/
  vertex : VertexId
  /-- The number of the generation, from one. -/
  generation : Nat
  /-- The number of tasks. -/
  parallelism : Nat
  /-- The tasks by index. -/
  tasks : List Task
  /-- When the generation started. -/
  startedAt : Instant
deriving DecidableEq, Repr

namespace VertexExecution

/-- A generation with fresh tasks. -/
def fresh (vertex : VertexId) (generation parallelism : Nat) (now : Instant) : VertexExecution where
  vertex := vertex
  generation := generation
  parallelism := parallelism
  tasks := (List.range parallelism).map fun subtask => { subtask, createdAt := now }
  startedAt := now

/-- A `fresh` generation has as many tasks as its `parallelism` says. -/
@[simp] theorem length_tasks_fresh (vertex : VertexId) (generation parallelism : Nat)
    (now : Instant) : (fresh vertex generation parallelism now).tasks.length = parallelism := by
  simp [fresh]

/-- Whether every task is finished or holds a slot. -/
def isDeployed (v : VertexExecution) : Bool := v.tasks.all (!·.isPending)

/-- Whether every task is finished. -/
def isFinished (v : VertexExecution) : Bool := v.tasks.all Task.isFinished

/-- A vertex is finished iff every one of its `tasks` is. -/
theorem isFinished_iff {v : VertexExecution} :
    v.isFinished = true ↔ ∀ t ∈ v.tasks, t.isFinished = true :=
  List.all_eq_true

/-- The number of finished tasks. -/
def finishedCount (v : VertexExecution) : Nat := v.tasks.countP Task.isFinished

/-- The attempts of all tasks. -/
def attempts (v : VertexExecution) : List Attempt := v.tasks.flatMap Task.attempts

/-- The attempts that hold a slot. -/
def activeAttempts (v : VertexExecution) : List Attempt := v.tasks.flatMap Task.activeAttempts

/-- The attempts that run. -/
def runningAttempts (v : VertexExecution) : List Attempt := v.attempts.filter (·.status = .running)

/-- The attempts that won their tasks. -/
def winners (v : VertexExecution) : List Attempt := v.tasks.filterMap Task.winningAttempt?

/-- The tasks that need a slot. -/
def pendingTasks (v : VertexExecution) : List Task := v.tasks.filter Task.isPending

/-- Whether an attempt ended no later than another; of two that ended together, the one of the
smaller task comes first. -/
def endsBefore (a b : Attempt) : Bool :=
  match a.endedAt, b.endedAt with
  | some s, some t => decide (s < t) || (decide (s = t) && decide (a.id.subtask ≤ b.id.subtask))
  | none, some _ => true
  | some _, none => false
  | none, none => decide (a.id.subtask ≤ b.id.subtask)

/-- The attempts that won their tasks in the order in which they ended. -/
def winnersByEndTime (v : VertexExecution) : List Attempt := v.winners.mergeSort endsBefore

/-- The number of finished tasks and the bytes they have produced. -/
def finishedOutput (v : VertexExecution) : Checked (Nat × Nat) := do
  let bytes ← Word.sum (v.winners.map fun a => a.outputBytes.getD 0)
  pure (v.winners.length, bytes)

/-- The bytes produced by all tasks, once every one is finished. -/
def totalOutput? (v : VertexExecution) : Checked (Option Nat) :=
  if v.isFinished then (some ·.2) <$> v.finishedOutput else pure none

end VertexExecution

end AdaptiveBatch
