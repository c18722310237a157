import AdaptiveBatch.Proofs.Execution.Reports

/-! # Operations on the execution graph

The graph is changed by eight operations. They may come in any order, with any arguments and any
number of times; one that is refused changes nothing.

* **`ExecutionGraph.Operation`**, **`ExecutionGraph.after`**, **`ExecutionGraph.run`** — one
  operation and the graph it leads to, and a list of operations with their times;
* **`ExecutionGraph.Effect`** — all that one operation can do: nothing, a new generation, a new
  attempt, a step of an attempt that holds a slot, or a win;
* **`ExecutionGraph.WellFormed.run`** — every graph reached from a well-formed one is well-formed. -/

namespace AdaptiveBatch.ExecutionGraph

/-- An operation on the execution graph. -/
inductive Operation
  /-- A new generation of a vertex. -/
  | startGeneration (vertex : VertexId) (parallelism : Nat)
  /-- A new attempt of a task. -/
  | addAttempt (vertex : VertexId) (subtask : Nat) (node : NodeId) (speculative : Bool)
  /-- An attempt is handed to its node. -/
  | markDeploying (id : AttemptId)
  /-- An attempt reports that it runs. -/
  | markRunning (id : AttemptId)
  /-- An attempt reports the bytes it has read. -/
  | recordProgress (id : AttemptId) (bytes : Nat)
  /-- An attempt reports success. -/
  | finishAttempt (id : AttemptId) (inputBytes outputBytes : Option Nat)
  /-- An attempt reports a failure. -/
  | failAttempt (id : AttemptId)
  /-- An attempt is canceled. -/
  | cancelAttempt (id : AttemptId)
deriving DecidableEq, Repr

/-- The vertex whose generation an operation replaces. -/
def Operation.replaced? : Operation → Option VertexId
  | .startGeneration vertex parallelism => if parallelism = 0 then none else some vertex
  | _ => none

variable {g g' : ExecutionGraph} {now : Instant}

/-- Carries out an operation at a time. -/
def perform (g : ExecutionGraph) (now : Instant) : Operation → Except ExecutionError ExecutionGraph
  | .startGeneration vertex parallelism => (·.2) <$> g.startGeneration vertex parallelism now
  | .addAttempt vertex subtask node speculative =>
    (·.2) <$> g.addAttempt vertex subtask node speculative now
  | .markDeploying id => (·.2) <$> g.markDeploying id
  | .markRunning id => (·.2) <$> g.markRunning id now
  | .recordProgress id bytes => (·.2) <$> g.recordProgress id bytes
  | .finishAttempt id inputBytes outputBytes =>
    (·.2) <$> g.finishAttempt id inputBytes outputBytes now
  | .failAttempt id => (·.2) <$> g.failAttempt id now
  | .cancelAttempt id => (·.2) <$> g.cancelAttempt id now

/-- The graph after an operation; a refused one leaves it as it is. -/
def after (g : ExecutionGraph) (now : Instant) (op : Operation) : ExecutionGraph :=
  match g.perform now op with
  | .ok g' => g'
  | .error _ => g

/-- The graph after operations, each at its time. -/
def run (g : ExecutionGraph) : List (Instant × Operation) → ExecutionGraph
  | [] => g
  | (now, op) :: rest => run (g.after now op) rest

/-- Running `ops ++ more` runs `more` on the graph that `ops` lead to. -/
theorem run_append (g : ExecutionGraph) (ops more : List (Instant × Operation)) :
    g.run (ops ++ more) = (g.run ops).run more := by
  induction ops generalizing g with
  | nil => rfl
  | cons first ops ih => exact ih (g.after first.1 first.2)

/-- What holds of a graph and is preserved by every operation holds after all of them: `J` is an
invariant of `run`. -/
theorem run_induction {J : ExecutionGraph → Prop} (init : J g)
    (step : ∀ g now op, J g → J (g.after now op)) (ops : List (Instant × Operation)) :
    J (g.run ops) := by
  induction ops generalizing g with
  | nil => exact init
  | cons first ops ih => exact ih (step g first.1 first.2 init)

/-! ## What an operation can do -/

/-- The effect of an operation, with the vertex whose generation it replaces. -/
inductive Effect (g : ExecutionGraph) (now : Instant) : Option VertexId → ExecutionGraph → Prop
  /-- The operation is refused, or it is a stray report. -/
  | nothing : Effect g now none g
  /-- A vertex gets fresh tasks. -/
  | regenerate (vertex : VertexId) {parallelism : Nat} (pos : parallelism ≠ 0) :
      Effect g now (some vertex) (g.regenerate vertex parallelism now)
  /-- A task gets an attempt. -/
  | push {a : Attempt} (next : g.IsNext a.id) (created : a.status = .created) :
      Effect g now none (g.push a)
  /-- An attempt that holds a slot makes a step, but does not finish. -/
  | advance {id : AttemptId} {advance : Attempt → Attempt} (active : g.IsActive id)
      (id_eq : ∀ a, (advance a).id = a.id)
      (not_finished : ∀ a, a.isActive = true → (advance a).status ≠ .finished) :
      Effect g now none (g.modifyAttempt id advance)
  /-- An awaited attempt finishes. -/
  | win {id : AttemptId} (awaits : g.Awaits id) (inputBytes outputBytes : Option Nat) :
      Effect g now none (g.win id inputBytes outputBytes now)

/-- A report has an effect: that of its `change` to an awaited attempt, or nothing. -/
theorem Effect.of_report {α : Type} {id : AttemptId} {change : Task → Task}
    {result : ExecutionGraph → α} {outcome : Reported α}
    (happlied : g.Awaits id → g.Effect now none (g.modifyTask id.vertex id.subtask change))
    (h : g.report id change result = .ok (outcome, g')) : g.Effect now none g' := by
  rcases report_cases h with ⟨-, -, rfl⟩ | ⟨hid, -, rfl⟩
  · exact .nothing
  · exact happlied hid

/-- A successful result is followed by the graph that it comes with, `g'`. -/
theorem exists_of_map_snd {α : Type} {r : Except ExecutionError (α × ExecutionGraph)}
    (h : (·.2) <$> r = .ok g') : ∃ a, r = .ok (a, g') := by
  cases r with
  | error e => cases h
  | ok p =>
    cases h
    exact ⟨p.1, rfl⟩

/-- An attempt that is added gets the next identity of its task and is pushed with the status
`created`. -/
theorem addAttempt_eq_ok {vertex : VertexId} {subtask : Nat} {node : NodeId} {speculative : Bool}
    {id : AttemptId} (h : g.addAttempt vertex subtask node speculative now = .ok (id, g')) :
    g.IsNext id ∧ g' = g.push { id, node, speculative, createdAt := now } := by
  unfold addAttempt at h
  cases hv : g.get? vertex with
  | none => rw [hv] at h; cases h
  | some v =>
    cases ht : v.tasks[subtask]? with
    | none => simp only [hv, ht] at h; cases h
    | some t =>
      simp only [hv, ht] at h
      cases h
      exact ⟨⟨t, taskOf?_eq_some_iff.2 ⟨v, hv, rfl, ht⟩, rfl⟩, rfl⟩

/-- An attempt that is handed to its node is active, and becomes `deploying`. -/
theorem markDeploying_eq_ok {id : AttemptId} {u : Unit} (h : g.markDeploying id = .ok (u, g')) :
    g.IsActive id ∧ g' = g.modifyAttempt id fun a => { a with status := .deploying } := by
  unfold markDeploying at h
  cases ha : g.attempt? id with
  | none => rw [ha] at h; cases h
  | some a =>
    simp only [ha] at h
    split at h
    · next hs =>
      -- A created attempt holds its slot already.
      cases h
      exact ⟨⟨a, ha, by rw [Attempt.isActive, hs]; rfl⟩, rfl⟩
    · cases h

/-- An operation that succeeds has one of the effects, and replaces the generation of
`op.replaced?`. -/
theorem effect_of_perform {op : Operation} (h : g.perform now op = .ok g') :
    g.Effect now op.replaced? g' := by
  cases op with
  | startGeneration vertex parallelism =>
    obtain ⟨start, h⟩ := exists_of_map_snd h
    rw [startGeneration_eq] at h
    split at h
    · cases h
    · next hpos =>
      cases h
      rw [Operation.replaced?, if_neg hpos]
      exact .regenerate vertex hpos
  | addAttempt vertex subtask node speculative =>
    obtain ⟨id, h⟩ := exists_of_map_snd h
    obtain ⟨hnext, rfl⟩ := addAttempt_eq_ok h
    exact .push hnext rfl
  | markDeploying id =>
    obtain ⟨_, h⟩ := exists_of_map_snd h
    obtain ⟨hactive, rfl⟩ := markDeploying_eq_ok h
    exact .advance hactive (fun _ => rfl) fun _ _ => AttemptStatus.noConfusion
  | markRunning id =>
    obtain ⟨_, h⟩ := exists_of_map_snd h
    refine Effect.of_report (fun hid => .advance hid.isActive (fun a => a.id_run now) ?_) h
    intro a _
    rw [Attempt.status_run]
    exact AttemptStatus.noConfusion
  | recordProgress id bytes =>
    obtain ⟨_, h⟩ := exists_of_map_snd h
    have hread (hid : g.Awaits id) : g.Effect now none
        (g.modifyAttempt id fun a => { a with inputBytes := some bytes }) := by
      refine .advance hid.isActive (fun _ => rfl) ?_
      -- The status stays, and a finished attempt holds no slot.
      intro a hactive hs
      rw [Attempt.isActive, hs] at hactive
      cases hactive
    exact Effect.of_report hread h
  | finishAttempt id inputBytes outputBytes =>
    obtain ⟨_, h⟩ := exists_of_map_snd h
    exact Effect.of_report (fun hid => .win hid inputBytes outputBytes) h
  | failAttempt id =>
    obtain ⟨_, h⟩ := exists_of_map_snd h
    exact Effect.of_report (fun hid => .advance hid.isActive (fun a => a.id_fail now)
      fun _ _ => AttemptStatus.noConfusion) h
  | cancelAttempt id =>
    obtain ⟨_, h⟩ := exists_of_map_snd h
    have hone : cancelOne now g id = g' := by rw [cancelOne, h]
    rcases cancelOne_cases g id now with ⟨hid, heq⟩ | ⟨-, heq⟩
    · rw [← hone, heq]
      refine .advance hid.isActive (fun a => a.id_cancel now) ?_
      intro a hactive
      rw [Attempt.cancel, if_pos hactive]
      exact AttemptStatus.noConfusion
    · rw [← hone, heq]
      exact .nothing

/-- An operation has one of the effects, whether or not it is refused: so `Effect` describes
`g.after now op`. -/
theorem effect_after (g : ExecutionGraph) (now : Instant) (op : Operation) :
    g.Effect now op.replaced? (g.after now op) := by
  unfold after
  cases h : g.perform now op with
  | ok g' => exact effect_of_perform h
  | error e =>
    -- Only a generation without tasks is refused, and that replaces none.
    have hnone : op.replaced? = none := by
      cases op with
      | startGeneration vertex parallelism =>
        rw [Operation.replaced?]
        split
        · rfl
        · next hpos =>
          rw [perform, startGeneration_eq, if_neg hpos] at h
          cases h
      | addAttempt | markDeploying | markRunning | recordProgress | finishAttempt | failAttempt
        | cancelAttempt => rfl
    rw [hnone]
    exact .nothing

/-! ## Reached graphs -/

/-- Every effect leads from a well-formed graph to a well-formed one. -/
theorem Effect.wellFormed {replaced? : Option VertexId} (h : g.Effect now replaced? g')
    (hg : g.WellFormed) : g'.WellFormed := by
  cases h with
  | nothing => exact hg
  | regenerate vertex pos => exact hg.regenerate pos
  | push next created => exact hg.push next (by rw [created]; exact AttemptStatus.noConfusion)
  | advance active id_eq not_finished => exact hg.modifyAttempt active id_eq not_finished
  | win awaits => exact hg.win awaits

/-- Whatever operations are run on a well-formed graph, it stays `WellFormed`. -/
theorem WellFormed.run (h : g.WellFormed) (ops : List (Instant × Operation)) :
    (g.run ops).WellFormed :=
  run_induction h (fun g now op hg => (g.effect_after now op).wellFormed hg) ops

end AdaptiveBatch.ExecutionGraph
