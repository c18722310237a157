import AdaptiveBatch.Proofs.Execution.Operations

/-! # What operations on the execution graph return

An operation returns its outcome beside the graph that it leads to, or an error. Five of the eight
are reports about an attempt, and those are alike: a report is classified in the graph as it stands,
and only one that is not stray changes the task that it names.

* **`ExecutionGraph.Outcome`**, **`ExecutionGraph.outcome`** — what each operation returns;
  `perform` keeps the graph of it, and `answer` the rest;
* **`ExecutionGraph.Report`** — the five operations about an attempt, as one;
* **`ExecutionGraph.outcome_report`** — a report is refused, discarded, or applied to its task. -/

namespace AdaptiveBatch.ExecutionGraph

/-- What an operation returns. -/
inductive Outcome
  /-- A generation has started. -/
  | started (start : GenerationStart)
  /-- An attempt was added. -/
  | added (id : AttemptId)
  /-- An attempt was handed to its node. -/
  | handed
  /-- The attempt runs, or has read so many bytes. -/
  | noted (reported : Reported Unit)
  /-- The attempt has finished. -/
  | finished (reported : Reported Win)
  /-- The attempt has failed. -/
  | failed (reported : Reported Loss)
  /-- The attempt was canceled, if it was active. -/
  | canceled (wasActive : Bool)
deriving DecidableEq, Repr

/-- Why the report was stray, if it was; a cancellation does not tell. -/
def Outcome.stray? : Outcome → Option StrayReason
  | noted (.stray reason) => some reason
  | finished (.stray reason) => some reason
  | failed (.stray reason) => some reason
  | _ => none

/-- The operation did nothing: a report was stray, or there was nothing to cancel. -/
def Outcome.isDiscarded (outcome : Outcome) : Bool :=
  outcome.stray?.isSome || outcome = canceled false

variable {g g' : ExecutionGraph} {now : Instant}

/-- What an operation returns, with the graph that it leads to. -/
def outcome (g : ExecutionGraph) (now : Instant) :
    Operation → Except ExecutionError (Outcome × ExecutionGraph)
  | .startGeneration vertex parallelism =>
    Prod.map .started (fun g' => g') <$> g.startGeneration vertex parallelism now
  | .addAttempt vertex subtask node speculative =>
    Prod.map .added (fun g' => g') <$> g.addAttempt vertex subtask node speculative now
  | .markDeploying id => Prod.map (fun _ => .handed) (fun g' => g') <$> g.markDeploying id
  | .markRunning id => Prod.map .noted (fun g' => g') <$> g.markRunning id now
  | .recordProgress id bytes => Prod.map .noted (fun g' => g') <$> g.recordProgress id bytes
  | .finishAttempt id inputBytes outputBytes =>
    Prod.map .finished (fun g' => g') <$> g.finishAttempt id inputBytes outputBytes now
  | .failAttempt id => Prod.map .failed (fun g' => g') <$> g.failAttempt id now
  | .cancelAttempt id => Prod.map .canceled (fun g' => g') <$> g.cancelAttempt id now

/-- What an operation returns, without the graph. -/
def answer (g : ExecutionGraph) (now : Instant) (op : Operation) : Except ExecutionError Outcome :=
  (·.1) <$> g.outcome now op

/-- The graph after an operation, `g.perform`, is the one that comes with its `g.outcome`. -/
theorem perform_eq (g : ExecutionGraph) (now : Instant) (op : Operation) :
    g.perform now op = (·.2) <$> g.outcome now op := by
  have hmap {α : Type} (f : α → Outcome) (r : Except ExecutionError (α × ExecutionGraph)) :
      (·.2) <$> r = (·.2) <$> Prod.map f (fun g' => g') <$> r := by
    cases r <;> rfl
  cases op <;> exact hmap _ _

/-! ## Reports -/

/-- What can be reported about an attempt. -/
inductive News
  /-- It runs. -/
  | running
  /-- It has read so many bytes. -/
  | progress (bytes : Nat)
  /-- It has finished. -/
  | success (inputBytes outputBytes : Option Nat)
  /-- It has failed. -/
  | failure
  /-- It is canceled. -/
  | cancellation
deriving DecidableEq, Repr

/-- A report about an attempt. -/
structure Report where
  /-- The attempt. -/
  id : AttemptId
  /-- What is reported. -/
  news : News
deriving DecidableEq, Repr

namespace Report

/-- The operation that a report calls for. -/
def operation : Report → Operation
  | ⟨id, .running⟩ => .markRunning id
  | ⟨id, .progress bytes⟩ => .recordProgress id bytes
  | ⟨id, .success inputBytes outputBytes⟩ => .finishAttempt id inputBytes outputBytes
  | ⟨id, .failure⟩ => .failAttempt id
  | ⟨id, .cancellation⟩ => .cancelAttempt id

/-- What an applied report does to its task. -/
def change (now : Instant) : Report → Task → Task
  | ⟨id, .running⟩ => (·.modifyAttempt id.number (·.run now))
  | ⟨id, .progress bytes⟩ =>
    (·.modifyAttempt id.number fun a => { a with inputBytes := some bytes })
  | ⟨id, .success inputBytes outputBytes⟩ => (·.win id.number inputBytes outputBytes now)
  | ⟨id, .failure⟩ => (·.modifyAttempt id.number (·.fail now))
  | ⟨id, .cancellation⟩ => (·.modifyAttempt id.number (·.cancel now))

/-- What an applied report returns, between two graphs. -/
def applied (g g' : ExecutionGraph) : Report → Outcome
  | ⟨_, .running⟩ => .noted (.applied ())
  | ⟨_, .progress _⟩ => .noted (.applied ())
  | ⟨id, .success _ _⟩ =>
    .finished (.applied { canceled := g.rivalIds id, vertexFinished := g'.isFinished id.vertex })
  | ⟨id, .failure⟩ => .failed <| .applied <|
    if (g'.taskOf? id).any fun t => decide (0 < t.activeCount) then .siblingsRemain else .taskLost
  | ⟨_, .cancellation⟩ => .canceled true

/-- What a stray report returns. -/
def discarded (reason : StrayReason) : Report → Outcome
  | ⟨_, .running⟩ => .noted (.stray reason)
  | ⟨_, .progress _⟩ => .noted (.stray reason)
  | ⟨_, .success _ _⟩ => .finished (.stray reason)
  | ⟨_, .failure⟩ => .failed (.stray reason)
  | ⟨_, .cancellation⟩ => .canceled false

/-- A report other than a cancellation says why it was discarded, with `stray? = some reason`. -/
theorem stray?_discarded {report : Report} (h : report.news ≠ .cancellation)
    (reason : StrayReason) : (report.discarded reason).stray? = some reason := by
  obtain ⟨id, news⟩ := report
  cases news with
  | cancellation => exact absurd rfl h
  | running | progress | success | failure => rfl

/-- What a discarded report returns is recognized by `isDiscarded`. -/
@[simp] theorem isDiscarded_discarded (report : Report) (reason : StrayReason) :
    (report.discarded reason).isDiscarded = true := by
  obtain ⟨id, news⟩ := report
  cases news <;> rfl

/-- What an applied report returns is not taken for `isDiscarded`. -/
@[simp] theorem isDiscarded_applied (report : Report) :
    (report.applied g g').isDiscarded = false := by
  obtain ⟨id, news⟩ := report
  cases news <;> rfl

end Report

/-- A report is refused, discarded or applied as `strayReason?` says, whatever `wrap` makes of its
result. -/
theorem map_report {α : Type} (wrap : Reported α → Outcome) (id : AttemptId) (change : Task → Task)
    (result : ExecutionGraph → α) :
    Prod.map wrap (fun g' => g') <$> g.report id change result = match g.strayReason? id with
      | .error e => .error e
      | .ok (some reason) => .ok (wrap (.stray reason), g)
      | .ok none =>
        let g' := g.modifyTask id.vertex id.subtask change
        .ok (wrap (.applied (result g')), g') := by
  unfold report
  cases g.strayReason? id with
  | error e => rfl
  | ok reason? => cases reason? <;> rfl

/-- A report is refused or discarded, or it changes its task by `report.change`. -/
theorem outcome_report (g : ExecutionGraph) (now : Instant) (report : Report) :
    g.outcome now report.operation = match g.strayReason? report.id with
      | .error e => .error e
      | .ok (some reason) => .ok (report.discarded reason, g)
      | .ok none =>
        let g' := g.modifyTask report.id.vertex report.id.subtask (report.change now)
        .ok (report.applied g g', g') := by
  obtain ⟨id, news⟩ := report
  cases news with
  | running => exact map_report .noted id _ _
  | progress bytes => exact map_report .noted id _ _
  | success inputBytes outputBytes => exact map_report .finished id _ _
  | failure => exact map_report .failed id _ _
  | cancellation =>
    -- A cancellation only tells whether it was applied.
    show Prod.map Outcome.canceled (fun g' => g') <$> g.cancelAttempt id now = _
    unfold cancelAttempt report
    cases g.strayReason? id with
    | error e => rfl
    | ok reason? => cases reason? <;> rfl

/-- An awaited report is applied: its outcome is `report.applied`, and the graph that of its
`change`. -/
theorem outcome_of_awaits {report : Report} (h : g.Awaits report.id) :
    g.outcome now report.operation =
      .ok (report.applied g
          (g.modifyTask report.id.vertex report.id.subtask (report.change now)),
        g.modifyTask report.id.vertex report.id.subtask (report.change now)) := by
  rw [outcome_report, strayReason?_eq_none_iff.2 h]

/-- A report that does not fail is discarded and changes nothing, or its attempt is awaited and it
is applied. -/
theorem outcome_report_eq_ok {report : Report} {outcome : Outcome}
    (h : g.outcome now report.operation = .ok (outcome, g')) :
    outcome.isDiscarded = true ∧ g' = g ∨
      g.Awaits report.id ∧ outcome = report.applied g g' ∧
        g' = g.modifyTask report.id.vertex report.id.subtask (report.change now) := by
  rw [outcome_report] at h
  cases hr : g.strayReason? report.id with
  | error e => rw [hr] at h; cases h
  | ok reason? =>
    rw [hr] at h
    cases reason? with
    | some reason => cases h; exact Or.inl ⟨report.isDiscarded_discarded reason, rfl⟩
    | none => cases h; exact Or.inr ⟨strayReason?_eq_none_iff.1 hr, rfl, rfl⟩

end AdaptiveBatch.ExecutionGraph
