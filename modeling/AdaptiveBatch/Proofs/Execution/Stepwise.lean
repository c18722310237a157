import AdaptiveBatch.Proofs.Execution.Outcomes

/-! # Operations step by step

An operation looks up and writes in turn, and what it has written stays when a later look-up fails.
The look-ups do not check the vertex, the generation, the task and the number in the same order, nor
all of them; in a well-formed graph they agree, so that nothing is written before the last of them
that can fail.

* **`ExecutionGraph.Stepwise`** — a computation on a graph that is kept up to an error;
* **`ExecutionGraph.Operation.execute`** — each operation with its look-ups and writes in order;
* **`ExecutionGraph.execute_eq`** — it returns what the operation returns, and ends where the
  operation leads, or where it started if it fails. -/

namespace AdaptiveBatch.ExecutionGraph

variable {g g' : ExecutionGraph} {id : AttemptId} {now : Instant}

/-- A computation on a graph; the graph is kept when it fails. -/
abbrev Stepwise := EStateM ExecutionError ExecutionGraph

namespace Stepwise

/-- Reads something off the graph, which may fail. -/
def look {α : Type} (f : ExecutionGraph → Except ExecutionError α) : Stepwise α := fun g =>
  match f g with
  | .ok a => .ok a g
  | .error e => .error e g

/-- Goes on with what was looked for, if it was found. -/
def found {α : Type} (e : ExecutionError) : Option α → Stepwise α
  | some a => pure a
  | none => throw e

/-- The current generation of a vertex. -/
def vertexOf (vertex : VertexId) : Stepwise VertexExecution := do
  found (.unknownVertex vertex) ((← get).get? vertex)

/-- A task, whatever the generation. -/
def taskOf (vertex : VertexId) (subtask : Nat) : Stepwise Task := look (·.task vertex subtask)

/-- The attempt with an identity. -/
def attemptOf (id : AttemptId) : Stepwise Attempt := do
  found (.unknownAttempt id) ((← get).attempt? id)

/-- Why a report is discarded, if it is; the attempt and its task are looked up separately. -/
def classify (id : AttemptId) : Stepwise (Option StrayReason) := do
  let v ← vertexOf id.vertex
  if id.generation < v.generation then
    return some (.superseded v.generation)
  let a ← attemptOf id
  let t ← taskOf id.vertex id.subtask
  return match a.status with
    | .canceled => some .canceled
    | .finished | .failed => some .alreadyTerminated
    | _ => if t.isFinished then some .alreadyWon else none

/-- Goes on with a report that is not discarded. -/
def unlessStray {α : Type} (id : AttemptId) (stray : StrayReason → α) (act : Stepwise α) :
    Stepwise α := do
  match ← classify id with
  | some reason => return stray reason
  | none => act

end Stepwise

open Stepwise in
/-- An operation with its look-ups and writes in order. -/
def Operation.execute (now : Instant) : Operation → Stepwise Outcome
  | .startGeneration vertex parallelism => do
    if parallelism = 0 then
      throw (.zeroParallelism vertex)
    match (← get).get? vertex with
    | some previous =>
      -- The old attempts are canceled where they are; then their generation is replaced.
      modify (·.modifyVertex vertex fun v => { v with
        tasks := v.tasks.map fun t => { t with attempts := t.attempts.map (·.cancel now) } })
      let generation := previous.generation + 1
      modify fun g => ⟨g.vertices.insert vertex (.fresh vertex generation parallelism now)⟩
      return .started { generation, canceled := previous.activeAttempts.map (·.id) }
    | none =>
      modify fun g => ⟨g.vertices.insert vertex (.fresh vertex 1 parallelism now)⟩
      return .started { generation := 1, canceled := [] }
  | .addAttempt vertex subtask node speculative => do
    let v ← vertexOf vertex
    let t ← found (.unknownSubtask vertex subtask) v.tasks[subtask]?
    let id : AttemptId :=
      { vertex, subtask, generation := v.generation, number := t.attempts.length }
    let attempt : Attempt := { id, node, speculative, createdAt := now }
    modify (·.modifyTask vertex subtask fun t => { t with attempts := t.attempts ++ [attempt] })
    return .added id
  | .markDeploying id => do
    let a ← attemptOf id
    if a.status ≠ .created then
      throw (.invalidTransition id a.status .deploying)
    modify (·.modifyAttempt id fun a => { a with status := .deploying })
    return .handed
  | .markRunning id => unlessStray id (fun reason => .noted (.stray reason)) do
    let a ← attemptOf id
    if a.status ≠ .running then
      modify (·.modifyAttempt id fun a => { a with status := .running, startedAt := some now })
    return .noted (.applied ())
  | .recordProgress id bytes => unlessStray id (fun reason => .noted (.stray reason)) do
    let _ ← attemptOf id
    modify (·.modifyAttempt id fun a => { a with inputBytes := some bytes })
    return .noted (.applied ())
  | .finishAttempt id inputBytes outputBytes =>
    unlessStray id (fun reason => .finished (.stray reason)) do
      -- The generation is not checked again.
      let v ← vertexOf id.vertex
      let t ← found (.unknownAttempt id) v.tasks[id.subtask]?
      let canceled := (t.attempts.filter fun a => a.id ≠ id && a.isActive).map (·.id)
      modify (·.modifyTask id.vertex id.subtask fun t => { t with
        attempts := t.attempts.map fun a =>
          if a.id = id then a.finish inputBytes outputBytes now else a.cancel now })
      modify (·.modifyTask id.vertex id.subtask fun t => { t with winner := some id.number })
      return .finished (.applied { canceled, vertexFinished := (← get).isFinished id.vertex })
  | .failAttempt id => unlessStray id (fun reason => .failed (.stray reason)) do
    let _ ← attemptOf id
    modify (·.modifyAttempt id fun a => { a with status := .failed, endedAt := some now })
    -- The task is looked up again, after the write.
    let t ← taskOf id.vertex id.subtask
    return .failed (.applied (if t.activeCount = 0 then .taskLost else .siblingsRemain))
  | .cancelAttempt id => unlessStray id (fun _ => .canceled false) do
    let _ ← attemptOf id
    modify (·.modifyAttempt id fun a => { a with status := .canceled, endedAt := some now })
    return .canceled true

/-- The end of a computation that fails where it started, or succeeds with a new graph. -/
def settle {α : Type} (g : ExecutionGraph) : Except ExecutionError (α × ExecutionGraph) →
    EStateM.Result ExecutionError ExecutionGraph α
  | .ok (a, g') => .ok a g'
  | .error e => .error e g

/-! ## Look-ups -/

section

variable {α β : Type} {x : Stepwise α} {next : α → Stepwise β} {a : α} {e : ExecutionError}

/-- A computation that succeeds with `a` goes on with `next a` on the graph it leads to. -/
theorem bind_of_ok (h : x g = .ok a g') : (x >>= next) g = next a g' := by
  show EStateM.bind x next g = _
  unfold EStateM.bind
  rw [h]

/-- A computation that fails does not go on. -/
theorem bind_of_error (h : x g = .error e g') : (x >>= next) g = .error e g' := by
  show EStateM.bind x next g = _
  unfold EStateM.bind
  rw [h]

/-- Reading a value `a` off the graph leaves the graph. -/
theorem look_of_ok {f : ExecutionGraph → Except ExecutionError α} (h : f g = .ok a) :
    Stepwise.look f g = .ok a g := by
  rw [Stepwise.look, h]

/-- A failure to read something off the graph leaves the graph. -/
theorem look_of_error {f : ExecutionGraph → Except ExecutionError α} (h : f g = .error e) :
    Stepwise.look f g = .error e g := by
  rw [Stepwise.look, h]

end

/-- Looking for a vertex finds its generation, and leaves the graph. -/
theorem vertexOf_of_get? {vertex : VertexId} {v : VertexExecution} (h : g.get? vertex = some v) :
    Stepwise.vertexOf vertex g = .ok v g := by
  show Stepwise.found _ (g.get? vertex) g = _
  rw [h]
  rfl

/-- Looking for a vertex that has not started fails with `.unknownVertex`, and leaves the graph. -/
theorem vertexOf_of_none {vertex : VertexId} (h : g.get? vertex = none) :
    Stepwise.vertexOf vertex g = .error (.unknownVertex vertex) g := by
  show Stepwise.found _ (g.get? vertex) g = _
  rw [h]
  rfl

/-- Looking for an attempt finds what `attempt?` finds, and leaves the graph. -/
theorem attemptOf_of_attempt? {a : Attempt} (h : g.attempt? id = some a) :
    Stepwise.attemptOf id g = .ok a g := by
  show Stepwise.found _ (g.attempt? id) g = _
  rw [h]
  rfl

/-- Looking for an attempt that there is not fails with `.unknownAttempt`, and leaves the graph. -/
theorem attemptOf_of_none (h : g.attempt? id = none) :
    Stepwise.attemptOf id g = .error (.unknownAttempt id) g := by
  show Stepwise.found _ (g.attempt? id) g = _
  rw [h]
  rfl

/-- The task of an attempt of the current generation is found by `taskOf` without its generation
too. -/
theorem taskOf_of_taskOf? {t : Task} (h : g.taskOf? id = some t) :
    Stepwise.taskOf id.vertex id.subtask g = .ok t g := by
  obtain ⟨v, hv, -, ht⟩ := taskOf?_eq_some_iff.1 h
  exact look_of_ok (by simp only [task, hv, ht])

/-- The separate look-ups of `classify` classify a report as `strayReason?` does. -/
theorem classify_eq (g : ExecutionGraph) (id : AttemptId) :
    Stepwise.classify id g = Stepwise.look (·.strayReason? id) g := by
  unfold Stepwise.classify
  cases hv : g.get? id.vertex with
  | none =>
    rw [bind_of_error (vertexOf_of_none hv), Stepwise.look, strayReason?, hv]
  | some v =>
    rw [bind_of_ok (vertexOf_of_get? hv)]
    by_cases hlt : id.generation < v.generation
    · simp only [Stepwise.look, strayReason?, hv, if_pos hlt]
      rfl
    · simp only [Stepwise.look, strayReason?, hv, if_neg hlt]
      cases ha : g.attempt? id with
      | none =>
        rw [bind_of_error (attemptOf_of_none ha)]
        cases g.taskOf? id <;> rfl
      | some a =>
        -- An attempt of the current generation has its task there, which is looked up next.
        obtain ⟨t, ht, -⟩ := attempt?_eq_some_iff.1 ha
        simp only [ht]
        rw [bind_of_ok (attemptOf_of_attempt? ha), bind_of_ok (taskOf_of_taskOf? ht)]
        rfl

/-- A report fails, is discarded or goes on with `act` exactly as `strayReason?` says. -/
theorem unlessStray_eq {α : Type} (g : ExecutionGraph) (id : AttemptId) (stray : StrayReason → α)
    (act : Stepwise α) : Stepwise.unlessStray id stray act g = match g.strayReason? id with
      | .error e => .error e g
      | .ok (some reason) => .ok (stray reason) g
      | .ok none => act g := by
  unfold Stepwise.unlessStray
  cases hr : g.strayReason? id with
  | error e => rw [bind_of_error ((classify_eq g id).trans (look_of_error hr))]
  | ok reason? =>
    rw [bind_of_ok ((classify_eq g id).trans (look_of_ok hr))]
    cases reason? <;> rfl

/-- A report about an awaited attempt is not discarded, so it goes on with `act`. -/
theorem unlessStray_of_awaits {α : Type} {stray : StrayReason → α} {act : Stepwise α}
    (h : g.Awaits id) : Stepwise.unlessStray id stray act g = act g := by
  rw [unlessStray_eq, strayReason?_eq_none_iff.2 h]

/-! ## Writes -/

/-- Only what a change does to the attempt that `id` names matters: `f` and `f'` may differ on
others. -/
theorem modifyAttempt_congr {a : Attempt} {f f' : Attempt → Attempt} (ha : g.attempt? id = some a)
    (h : f a = f' a) : g.modifyAttempt id f = g.modifyAttempt id f' := by
  obtain ⟨t, ht, hget⟩ := attempt?_eq_some_iff.1 ha
  obtain ⟨v, hv, -, htask⟩ := taskOf?_eq_some_iff.1 ht
  apply modifyTask_congr
  intro w t' hw ht'
  obtain ⟨rfl, rfl⟩ := task_unique hv htask hw ht'
  have hattempts : t.attempts.modify id.number f = t.attempts.modify id.number f' := by
    apply List.ext_getElem?
    intro n
    rw [List.getElem?_modify, List.getElem?_modify]
    by_cases hn : id.number = n
    · rw [← hn, hget]
      simp [h]
    · simp [hn]
  rw [Task.modifyAttempt, Task.modifyAttempt, hattempts]

/-- A change `f` that leaves the attempt as it is leaves the graph as it is. -/
theorem modifyAttempt_eq_self {a : Attempt} {f : Attempt → Attempt} (ha : g.attempt? id = some a)
    (h : f a = a) : g.modifyAttempt id f = g := by
  have hid (t : Task) : t.modifyAttempt id.number (fun a => a) = t :=
    congrArg (fun attempts => { t with attempts }) (List.modify_id id.number t.attempts)
  have hids (l : List Task) : l.modify id.subtask (fun t => t) = l := List.modify_id id.subtask l
  have hsame : g.modifyAttempt id f = g.modifyAttempt id fun a => a := modifyAttempt_congr ha h
  rw [hsame]
  apply ext_get?
  intro vertex
  simp only [modifyAttempt, get?_modifyTask, hid, hids]
  split
  · exact Option.map_id_apply
  · rfl

/-- In a well-formed task the identity of an attempt says no more than its `number`. -/
theorem id_eq_iff {t : Task} {a : Attempt} (h : t.WellFormed id.vertex id.generation id.subtask)
    (ha : a ∈ t.attempts) : a.id = id ↔ a.id.number = id.number := by
  obtain ⟨n, hn⟩ := List.mem_iff_getElem?.1 ha
  rw [h.id_eq n a hn]
  refine ⟨fun heq => congrArg AttemptId.number heq, fun hnumber => ?_⟩
  exact AttemptId.ext rfl rfl rfl hnumber

/-- The attempts canceled by a win, told apart by their identities, are the `rivals` told apart by
number. -/
theorem rivals_eq {t : Task} (h : t.WellFormed id.vertex id.generation id.subtask) :
    (t.attempts.filter fun a => a.id ≠ id && a.isActive) = t.rivals id.number := by
  unfold Task.rivals Task.activeAttempts
  rw [List.filter_filter]
  apply List.filter_congr
  intro a ha
  simp only [ne_eq, id_eq_iff h ha]

/-- The attempts after a win, told apart by identities, are those of `t.win`, told apart by
number. -/
theorem win_eq {t : Task} (h : t.WellFormed id.vertex id.generation id.subtask)
    (inputBytes outputBytes : Option Nat) (now : Instant) :
    ({ t with
      attempts := t.attempts.map fun a =>
        if a.id = id then a.finish inputBytes outputBytes now else a.cancel now
      winner := some id.number } : Task) = t.win id.number inputBytes outputBytes now := by
  refine congrArg (fun attempts => ({ t with attempts, winner := some id.number } : Task)) ?_
  apply List.map_congr_left
  intro a ha
  simp only [id_eq_iff h ha]

/-- The two writes of a win, to the attempts and then to the `winner`, are one `g.win`. -/
theorem win_of_writes {t : Task} (hg : g.WellFormed) (ht : g.taskOf? id = some t)
    (inputBytes outputBytes : Option Nat) (now : Instant) :
    (g.modifyTask id.vertex id.subtask fun t => { t with
        attempts := t.attempts.map fun a =>
          if a.id = id then a.finish inputBytes outputBytes now else a.cancel now }).modifyTask
      id.vertex id.subtask (fun t => { t with winner := some id.number }) =
      g.win id inputBytes outputBytes now := by
  obtain ⟨v, hv, -, htask⟩ := taskOf?_eq_some_iff.1 ht
  rw [modifyTask_modifyTask]
  apply modifyTask_congr
  intro w t' hw ht'
  obtain ⟨rfl, rfl⟩ := task_unique hv htask hw ht'
  exact win_eq (hg.taskOf? ht) inputBytes outputBytes now

/-- What was canceled in the old generation of a vertex goes with it: the insertion of `v`
overwrites what `f` did there. -/
theorem insert_modifyVertex (g : ExecutionGraph) (vertex : VertexId)
    (f : VertexExecution → VertexExecution) (v : VertexExecution) :
    (⟨(g.modifyVertex vertex f).vertices.insert vertex v⟩ : ExecutionGraph) =
      ⟨g.vertices.insert vertex v⟩ := by
  apply ext_get?
  intro other
  rw [get?_insert, get?_insert, get?_modifyVertex]
  split <;> rfl

/-! ## Operations -/

/-- An applied report, with its look-ups and writes in order, returns `report.applied` and makes
`report.change`. -/
theorem execute_of_awaits (hg : g.WellFormed) (report : Report) (hid : g.Awaits report.id) :
    report.operation.execute now g = .ok
      (report.applied g
        (g.modifyTask report.id.vertex report.id.subtask (report.change now)))
      (g.modifyTask report.id.vertex report.id.subtask (report.change now)) := by
  obtain ⟨id, news⟩ := report
  obtain ⟨v, t, hv, -, htask, ht, ⟨a, hget, hactive⟩, -⟩ := hid.exists_task
  have ha : g.attempt? id = some a := attempt?_eq_some_iff.2 ⟨t, ht, hget⟩
  have hlook := attemptOf_of_attempt? ha
  have hwf : t.WellFormed id.vertex id.generation id.subtask := hg.taskOf? ht
  cases news with
  | running =>
    refine (unlessStray_of_awaits hid).trans ?_
    refine (bind_of_ok hlook).trans ?_
    by_cases hs : a.status = .running
    · -- It runs already, and nothing is written.
      simp only [ne_eq, hs, not_true_eq_false, ↓reduceIte]
      have hself : g.modifyAttempt id (·.run now) = g :=
        modifyAttempt_eq_self ha (by rw [Attempt.run, if_pos hs])
      exact congrArg (EStateM.Result.ok _) hself.symm
    · simp only [ne_eq, hs, not_false_eq_true, ↓reduceIte]
      exact congrArg (EStateM.Result.ok _) <|
        modifyAttempt_congr ha (by rw [Attempt.run, if_neg hs])
  | progress bytes =>
    refine (unlessStray_of_awaits hid).trans ?_
    exact bind_of_ok hlook
  | success inputBytes outputBytes =>
    refine (unlessStray_of_awaits hid).trans ?_
    refine (bind_of_ok (vertexOf_of_get? hv)).trans ?_
    simp only [htask]
    refine (bind_of_ok rfl).trans ?_
    have hrivals : ((t.attempts.filter fun a => a.id ≠ id && a.isActive).map (·.id)) =
        g.rivalIds id := by
      rw [rivals_eq hwf, rivalIds, ht]
      rfl
    show EStateM.Result.ok (Outcome.finished (.applied ⟨_, isFinished _ id.vertex⟩)) _ = _
    beta_reduce
    rw [win_of_writes hg ht, hrivals]
    rfl
  | failure =>
    refine (unlessStray_of_awaits hid).trans ?_
    refine (bind_of_ok hlook).trans ?_
    -- The task is found again after the write.
    have hafter : (g.modifyAttempt id (·.fail now)).taskOf? id =
        some (t.modifyAttempt id.number (·.fail now)) := by
      rw [modifyAttempt, taskOf?_modifyTask, if_pos ⟨rfl, rfl⟩, ht]
      rfl
    refine (bind_of_ok (taskOf_of_taskOf? hafter)).trans ?_
    refine congrArg (fun loss : Loss =>
      EStateM.Result.ok (Outcome.failed (.applied loss)) (g.modifyAttempt id (·.fail now))) ?_
    show _ = if ((g.modifyAttempt id (·.fail now)).taskOf? id).any _ then _ else _
    rw [hafter, Option.any_some]
    by_cases hcount : (t.modifyAttempt id.number (·.fail now)).activeCount = 0
    · simp [hcount]
    · simp [hcount, Nat.pos_of_ne_zero hcount]
  | cancellation =>
    refine (unlessStray_of_awaits hid).trans ?_
    refine (bind_of_ok hlook).trans ?_
    exact congrArg (EStateM.Result.ok _) <|
      modifyAttempt_congr ha (by rw [Attempt.cancel, if_pos hactive])

/-- A report, carried out step by step, ends as `settle` says: where it started if it fails, and
else with its outcome. -/
theorem execute_report (hg : g.WellFormed) (report : Report) :
    report.operation.execute now g = settle g (g.outcome now report.operation) := by
  by_cases hid : g.Awaits report.id
  · rw [execute_of_awaits hg report hid, outcome_of_awaits hid]
    rfl
  · -- Nothing comes after the classification.
    have hstray (stray : StrayReason → Outcome) (act : Stepwise Outcome)
        (h : ∀ reason, stray reason = report.discarded reason) :
        Stepwise.unlessStray report.id stray act g =
          settle g (g.outcome now report.operation) := by
      rw [unlessStray_eq, outcome_report]
      cases hr : g.strayReason? report.id with
      | error e => rfl
      | ok reason? =>
        cases reason? with
        | none => exact absurd (strayReason?_eq_none_iff.1 hr) hid
        | some reason => exact congrArg (EStateM.Result.ok · g) (h reason)
    obtain ⟨id, news⟩ := report
    cases news <;> exact hstray _ _ fun _ => rfl

/-- Starting a generation step by step, with the old attempts canceled first, ends as its `outcome`
says. -/
theorem execute_startGeneration (g : ExecutionGraph) (now : Instant) (vertex : VertexId)
    (parallelism : Nat) : (Operation.startGeneration vertex parallelism).execute now g =
      settle g (g.outcome now (.startGeneration vertex parallelism)) := by
  by_cases hp : parallelism = 0
  · subst hp
    rfl
  · have houtcome : g.outcome now (.startGeneration vertex parallelism) =
        .ok (.started ⟨g.nextGeneration vertex, g.activeIdsOf vertex⟩,
          g.regenerate vertex parallelism now) := by
      rw [outcome, startGeneration_eq, if_neg hp]
      rfl
    rw [houtcome]
    simp only [Operation.execute, if_neg hp, settle, regenerate, nextGeneration, activeIdsOf]
    refine (bind_of_ok rfl).trans ?_
    cases hv : g.get? vertex with
    | none => rfl
    | some v =>
      -- Two writes, of which the second hides the first.
      refine (bind_of_ok rfl).trans ((bind_of_ok rfl).trans ?_)
      exact congrArg (EStateM.Result.ok _) (insert_modifyVertex g vertex _ _)

/-- Adding an attempt step by step ends as its `outcome` says. -/
theorem execute_addAttempt (g : ExecutionGraph) (now : Instant) (vertex : VertexId) (subtask : Nat)
    (node : NodeId) (speculative : Bool) :
    (Operation.addAttempt vertex subtask node speculative).execute now g =
      settle g (g.outcome now (.addAttempt vertex subtask node speculative)) := by
  rw [outcome, addAttempt]
  cases hv : g.get? vertex with
  | none => exact bind_of_error (vertexOf_of_none hv)
  | some v =>
    refine (bind_of_ok (vertexOf_of_get? hv)).trans ?_
    cases ht : v.tasks[subtask]? with
    | none => simp only [ht]; rfl
    | some t => simp only [ht]; rfl

/-- Handing an attempt to its node step by step ends as its `outcome` says. -/
theorem execute_markDeploying (g : ExecutionGraph) (now : Instant) (id : AttemptId) :
    (Operation.markDeploying id).execute now g = settle g (g.outcome now (.markDeploying id)) := by
  rw [outcome, markDeploying]
  cases ha : g.attempt? id with
  | none => exact bind_of_error (attemptOf_of_none ha)
  | some a =>
    refine (bind_of_ok (attemptOf_of_attempt? ha)).trans ?_
    by_cases hs : a.status = .created
    · simp only [hs, ne_eq, not_true_eq_false, ↓reduceIte]
      rfl
    · simp only [hs, ne_eq, not_false_eq_true, ↓reduceIte]
      rfl

/-- **Look-ups agree.** In a well-formed graph an operation, carried out look-up by look-up and
write by write, returns what it returns as a whole. If it fails, nothing was written. -/
theorem execute_eq (hg : g.WellFormed) (now : Instant) (op : Operation) :
    op.execute now g = settle g (g.outcome now op) := by
  cases op with
  | startGeneration vertex parallelism => exact execute_startGeneration g now vertex parallelism
  | addAttempt vertex subtask node speculative =>
    exact execute_addAttempt g now vertex subtask node speculative
  | markDeploying id => exact execute_markDeploying g now id
  | markRunning id => exact execute_report hg ⟨id, .running⟩
  | recordProgress id bytes => exact execute_report hg ⟨id, .progress bytes⟩
  | finishAttempt id inputBytes outputBytes =>
    exact execute_report hg ⟨id, .success inputBytes outputBytes⟩
  | failAttempt id => exact execute_report hg ⟨id, .failure⟩
  | cancelAttempt id => exact execute_report hg ⟨id, .cancellation⟩

end AdaptiveBatch.ExecutionGraph
