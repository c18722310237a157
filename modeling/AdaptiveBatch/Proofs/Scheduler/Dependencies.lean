import AdaptiveBatch.Proofs.Scheduler.Tracking

/-! # Consumers and their producers

A vertex starts when it is ready, or with a plan of the controller. Plans speak about vertices with a
requirement, and of these only sources may not have started yet. So whenever a vertex has started, its
producers have, and those whose end it waits for are finished. That this remains so rests on what is
never undone: a vertex that has started stays started, and a finished one stays exactly as it is, since
every call changes unfinished vertices only.

* **`ExecutionGraph.Retains`** — nothing of this is undone; **`Scheduler.Step.retains`**,
  **`Scheduler.Opening.retains`** — neither by a step nor by an opening;
* **`Scheduler.Supplied`** — the producer of an edge is as far as its consumer needs it;
* **`Scheduler.Ordered`** — the vertices that have started are supplied, kept by every call;
* **`Scheduler.dependencies_respected`** — the same for every history. -/

namespace AdaptiveBatch

/-! ## Graphs -/

namespace ExecutionGraph

variable {g g' g'' : ExecutionGraph} {vertex : VertexId} {k : Nat} {id : AttemptId} {f : Task → Task}
  {now : Instant}

/-- What has started stays started, and what is finished stays as it is. -/
structure Retains (g g' : ExecutionGraph) : Prop where
  /-- A vertex that has started stays started. -/
  started : ∀ vertex : VertexId, (g.get? vertex).isSome = true → (g'.get? vertex).isSome = true
  /-- A finished vertex stays as it is. -/
  finished : ∀ (vertex : VertexId) (v : VertexExecution), g.get? vertex = some v →
    v.isFinished = true → g'.get? vertex = some v

/-- A graph retains what it has. -/
theorem Retains.refl (g : ExecutionGraph) : g.Retains g := ⟨fun _ h => h, fun _ _ h _ => h⟩

/-- What `g'` retains of `g` and `g''` of `g'` is retained from `g` to `g''`. -/
theorem Retains.trans (h : g.Retains g') (h' : g'.Retains g'') : g.Retains g'' where
  started vertex hsome := h'.started vertex (h.started vertex hsome)
  finished vertex v hv hfinished := h'.finished vertex v (h.finished vertex v hv hfinished) hfinished

/-- A finished vertex remains finished in a graph that `Retains` it. -/
theorem Retains.isFinished (h : g.Retains g') (hfinished : g.isFinished vertex = true) :
    g'.isFinished vertex = true := by
  obtain ⟨v, hv, hend⟩ := (Option.any_eq_true _ _).1 hfinished
  exact (Option.any_eq_true _ _).2 ⟨v, h.finished vertex v hv hend, hend⟩

/-- Whatever becomes of a single `vertex` that is not finished, as long as it stays started, the
graph retains everything. -/
theorem Retains.of_unfinished (hopen : g.isFinished vertex = false)
    (hstarted : (g.get? vertex).isSome = true → (g'.get? vertex).isSome = true)
    (hothers : ∀ other, vertex ≠ other → g'.get? other = g.get? other) : g.Retains g' where
  started other hsome := by
    by_cases heq : vertex = other
    · subst heq
      exact hstarted hsome
    · rw [hothers other heq]
      exact hsome
  finished other v hv hfinished := by
    have hne : vertex ≠ other := by
      rintro rfl
      rw [ExecutionGraph.isFinished, hv] at hopen
      exact absurd hfinished (Bool.eq_false_iff.1 hopen)
    rw [hothers other hne]
    exact hv

/-- A change of a task that is not won, `t.winner = none`, leaves all finished vertices as they
are. -/
theorem retains_modifyTask {v : VertexExecution} {t : Task} (hv : g.get? vertex = some v)
    (ht : v.tasks[k]? = some t) (hw : t.winner = none) : g.Retains (g.modifyTask vertex k f) := by
  apply Retains.of_unfinished (isFinished_of_winner_eq_none hv ht hw)
  · rw [isSome_get?_modifyTask]
    exact id
  · intro other hne
    rw [get?_modifyTask, if_neg hne]

/-- A report is applied to a task that is not won, so the graph retains everything. -/
theorem Awaits.retains (h : g.Awaits id) : g.Retains (g.modifyTask id.vertex id.subtask f) := by
  obtain ⟨v, t, hv, -, ht, -, -, hw⟩ := h.exists_task
  exact retains_modifyTask hv ht hw

/-- Cancellations leave all finished vertices as they are. -/
theorem retains_cancelEach (ids : List AttemptId) : g.Retains (g.cancelEach ids now) :=
  cancelEach_keeps (J := g.Retains) (.refl g) (fun _ _ hid hg => hg.trans hid.retains) ids

/-- A vertex that is not finished may start over; the graph retains everything. -/
theorem retains_regenerate (hopen : g.isFinished vertex = false) (parallelism : Nat) :
    g.Retains (g.regenerate vertex parallelism now) := by
  apply Retains.of_unfinished hopen
  · intro _
    rw [isSome_get?_regenerate, if_pos rfl]
  · intro other hne
    rw [get?_regenerate, if_neg hne]

end ExecutionGraph

/-! ## What is never undone -/

namespace Scheduler

open Scheduling ExecutionGraph

variable {s t : Scheduler} {now : Instant} {vertex : VertexId} {e : JobEdge}

/-- A vertex that `needsGeneration` is not finished. -/
theorem isFinished_of_needsGeneration {parallelism : Nat}
    (h : s.needsGeneration vertex parallelism = true) : s.graph.isFinished vertex = false := by
  unfold needsGeneration at h
  unfold ExecutionGraph.isFinished
  cases hv : s.graph.get? vertex with
  | none => rfl
  | some v =>
    rw [hv] at h
    have hopen := (Bool.and_eq_true_iff.1 h).1
    simpa using hopen

/-- A look undoes nothing: it starts no vertex over that is finished. -/
theorem retains_look : s.graph.Retains ((look now).final s).graph :=
  look_keeps_planned (J := fun t => s.graph.Retains t.graph) (.refl s.graph)
    (fun _ _ _ => .refl s.graph)
    (fun _ _ _ _ _ _ _ _ _ hneeds ht =>
      ht.trans (retains_regenerate (isFinished_of_needsGeneration hneeds) _))
    (fun _ _ ht => ht) fun _ _ ht => ht.trans (retains_cancelEach _)

/-- A step of a call undoes nothing. -/
theorem Step.retains (h : Step now s t) : s.graph.Retains t.graph := by
  cases h with
  | place executing live vertex_eq task_eq winner_eq =>
    -- Whatever the backend answers, the attempt belongs to this task.
    unfold placed push
    split <;> exact retains_modifyTask vertex_eq task_eq winner_eq
  | start executing live mem_order new =>
    exact retains_regenerate (isFinished_of_get?_eq_none new) _
  | look => exact retains_look
  | giveUp => exact retains_cancelEach _
  | react | count => exact .refl _

/-- What comes before the look of a call undoes nothing. -/
theorem Opening.retains {c : Call} (h : Opening now s c t) : s.graph.Retains t.graph := by
  cases h with
  | nothing | resources | tick => exact .refl _
  | running awaits | progress awaits | failed awaits => exact awaits.retains
  | finished awaits =>
    unfold won
    split <;> exact awaits.retains
  | scaled =>
    exact restartAll_keeps (J := fun t => s.graph.Retains t.graph) (.refl _)
      (fun _ _ parallelism _ hopen ht =>
        ht.trans (retains_regenerate (isFinished_of_unfinished? hopen) parallelism))
      fun _ ht => ht

/-- No history undoes anything: `s.graph.Retains (s.run history).graph`. -/
theorem retains_run (hs : s.Sound) (history : History) :
    s.graph.Retains (s.run history).graph :=
  run_keeps (J := fun t => s.graph.Retains t.graph) hs
    (fun _ _ _ _ hopen ht => ht.trans hopen.retains)
    (fun _ _ _ hstep ht => ht.trans hstep.retains) (.refl _) history

/-! ## Producers -/

/-- The consumer of an edge waits until every task of the producer is finished. -/
def WaitsForEnd (s : Scheduler) (e : JobEdge) : Prop :=
  e.exchange = .blocking ∨
    e.exchange = .hybrid ∧ s.config.consumeConstraint = .allProducersFinished

/-- The producer of an edge is as far as its consumer needs it. -/
structure Supplied (s : Scheduler) (e : JobEdge) : Prop where
  /-- It has started. -/
  started : (s.graph.get? e.source).isSome = true
  /-- It is finished, if the consumer waits for that. -/
  finished : s.WaitsForEnd e → s.graph.isFinished e.source = true

/-- An edge that is supplied stays so as long as the graph `Retains` what it has. -/
theorem Supplied.of_retains (h : s.Supplied e) (hjob : s.SameJob t)
    (hretains : s.graph.Retains t.graph) : t.Supplied e where
  started := hretains.started e.source h.started
  finished hwaits := by
    unfold WaitsForEnd at hwaits
    rw [hjob.1] at hwaits
    exact hretains.isFinished (h.finished hwaits)

/-- An input that can be consumed, `s.inputReady e`, has a producer that is far enough. -/
theorem supplied_of_inputReady (h : s.inputReady e = true) : s.Supplied e := by
  have hfinished (hend : s.graph.isFinished e.source = true) : s.Supplied e := by
    obtain ⟨v, hv, -⟩ := (Option.any_eq_true _ _).1 hend
    exact ⟨by rw [hv]; rfl, fun _ => hend⟩
  -- A producer that only holds its slots does for a consumer that does not wait for its end.
  have hdeployed (hslots : s.graph.isDeployed e.source = true) (hnot : ¬s.WaitsForEnd e) :
      s.Supplied e := by
    obtain ⟨v, hv, -⟩ := (Option.any_eq_true _ _).1 hslots
    exact ⟨by rw [hv]; rfl, fun hwaits => absurd hwaits hnot⟩
  unfold inputReady at h
  cases hexchange : e.exchange with
  | blocking =>
    rw [hexchange] at h
    exact hfinished h
  | pipelined =>
    rw [hexchange] at h
    rcases Bool.or_eq_true_iff.1 h with hend | hslots
    · exact hfinished hend
    · exact hdeployed hslots (by simp [WaitsForEnd, hexchange])
  | hybrid =>
    rw [hexchange] at h
    rcases Bool.or_eq_true_iff.1 h with hend | hboth
    · exact hfinished hend
    · obtain ⟨hconstraint, hslots⟩ := Bool.and_eq_true_iff.1 hboth
      refine hdeployed hslots ?_
      simpa [WaitsForEnd, hexchange, ConsumeConstraint.requiresFinished] using hconstraint

/-! ## Vertices in order -/

/-- The vertices that have started are supplied, and so are those that may start with a plan. -/
structure Ordered (s : Scheduler) : Prop where
  /-- The controller and the execution speak about the same vertices. -/
  tracked : s.Tracked
  /-- A vertex with a requirement has started, or it is a source. -/
  rooted : ∀ vertex : VertexId, (s.controller.requirements[vertex]?).isSome = true →
    (s.graph.get? vertex).isSome = true ∨ s.job.isSource vertex = true
  /-- The inputs of a vertex that has started are supplied. -/
  supplied : ∀ e ∈ s.job.edges, (s.graph.get? e.target).isSome = true → s.Supplied e

/-- Vertices may start whose inputs are supplied; otherwise a state stays `Ordered` as long as the
graph `Retains` what it has and requirements are not new. -/
theorem Ordered.of_retains (h : s.Ordered) (ht : t.Tracked) (hjob : s.SameJob t)
    (hretains : s.graph.Retains t.graph)
    (hrequired : ∀ vertex : VertexId, (t.controller.requirements[vertex]?).isSome = true →
      (s.controller.requirements[vertex]?).isSome = true ∨ (t.graph.get? vertex).isSome = true)
    (hnew : ∀ vertex : VertexId, (t.graph.get? vertex).isSome = true →
      (s.graph.get? vertex).isSome = true ∨ ∀ e ∈ s.job.inputsOf vertex, s.Supplied e) :
    t.Ordered := by
  refine ⟨ht, ?_, ?_⟩
  · intro vertex hsome
    rw [hjob.2.1]
    rcases hrequired vertex hsome with hold | hstarted
    · exact (h.rooted vertex hold).imp_left (hretains.started vertex)
    · exact Or.inl hstarted
  · intro e he htarget
    rw [hjob.2.1] at he
    have hsupplied : s.Supplied e := by
      rcases hnew e.target htarget with hold | hinputs
      · exact h.supplied e he hold
      · exact hinputs e (JobGraph.mem_inputsOf.2 ⟨he, rfl⟩)
    exact hsupplied.of_retains hjob hretains

/-- What starts with a look has started before, or it is a source; so a look keeps the order. -/
theorem Ordered.look (h : s.Ordered) : ((Scheduler.look now).final s).Ordered := by
  obtain ⟨action, heval, hjob, hrealized⟩ := ensures_final.1 (ensures_look h.tracked now)
  apply h.of_retains h.tracked.look hjob retains_look
  · intro vertex hsome
    rw [heval.frame.2.2] at hsome
    exact Or.inl hsome
  · intro vertex hsome
    rw [hrealized.isSome_eq] at hsome
    rcases Bool.or_eq_true_iff.1 hsome with hplanned | hold
    · obtain ⟨p, hp⟩ := Option.isSome_iff_exists.1 hplanned
      obtain ⟨r, hr, -⟩ := h.tracked.coherent.exists_requirement heval hp
      refine (h.rooted vertex (by rw [hr]; rfl)).imp_right ?_
      intro hsource e he
      rw [List.isEmpty_iff.1 hsource] at he
      cases he
    · exact Or.inl hold

/-- A step of a call keeps the order: a vertex that starts is ready, so its inputs are supplied. -/
theorem Step.ordered (h : Step now s t) (hs : s.Ordered) : t.Ordered := by
  have hkeeps := hs.of_retains (h.tracked hs.tracked) h.sameJob h.retains
  cases h with
  | place =>
    exact hkeeps (fun _ hsome => Or.inl hsome)
      fun vertex hsome => Or.inl ((sameSizes_push _ vertex).1.symm.trans hsome)
  | @start v inputs id executing live mem_order new ready vertex_eq inputs_eq pos =>
    have hstarts (vertex : VertexId) : ((s.started v inputs id now).graph.get? vertex).isSome =
        if id = vertex then true else (s.graph.get? vertex).isSome := isSome_get?_regenerate _ vertex
    apply hkeeps
    · intro vertex hsome
      change ((s.controller.requirements.insert id _)[vertex]?).isSome = true at hsome
      rw [ParallelismPlan.getElem?_insert] at hsome
      split at hsome
      · next heq => exact Or.inr (by rw [hstarts, if_pos heq])
      · exact Or.inl hsome
    · intro vertex hsome
      rw [hstarts] at hsome
      split at hsome
      · next heq =>
        -- The vertex is ready.
        subst heq
        exact Or.inr fun e he => supplied_of_inputReady (List.all_eq_true.1 ready e he)
      · exact Or.inl hsome
  | look => exact hs.look
  | giveUp =>
    exact hkeeps (fun _ hsome => Or.inl hsome)
      fun vertex hsome => Or.inl ((sameSizes_cancelEach _ vertex).1.symm.trans hsome)
  | react | count => exact hkeeps (fun _ hsome => Or.inl hsome) fun _ hsome => Or.inl hsome

/-- An opening starts no vertex, and none that did not before has a requirement after it. -/
theorem Opening.starts_nothing {c : Call} (h : Opening now s c t) (vertex : VertexId) :
    (t.graph.get? vertex).isSome = (s.graph.get? vertex).isSome ∧
      ((t.controller.requirements[vertex]?).isSome = true →
        (s.controller.requirements[vertex]?).isSome = true) := by
  cases h with
  | nothing | resources | tick => exact ⟨rfl, id⟩
  | running | progress | failed => exact ⟨isSome_get?_modifyTask vertex, id⟩
  | @finished attempt _ _ awaits =>
    unfold won
    split
    · refine ⟨isSome_get?_modifyTask vertex, ?_⟩
      intro hsome
      change ((s.controller.requirements.erase attempt.vertex)[vertex]?).isSome = true at hsome
      rw [ParallelismPlan.getElem?_erase] at hsome
      split at hsome
      · cases hsome
      · exact hsome
    · exact ⟨isSome_get?_modifyTask vertex, id⟩
  | scaled =>
    refine restartAll_keeps (J := fun t => (t.graph.get? vertex).isSome = (s.graph.get? vertex).isSome ∧
      ((t.controller.requirements[vertex]?).isSome = true →
        (s.controller.requirements[vertex]?).isSome = true)) ⟨rfl, id⟩ ?_ ?_
    · intro t other parallelism _ hopen ht
      refine ⟨(isSome_get?_regenerate parallelism vertex).trans ?_, ht.2⟩
      split
      · next heq => rw [← ht.1, ← heq, isSome_get?_of_unfinished? hopen]
      · exact ht.1
    · intro t ht
      refine ⟨ht.1, ?_⟩
      show (((t.controller.awaitRestart now).requirements)[vertex]?).isSome = true → _
      rw [RescaleController.requirements_awaitRestart]
      exact ht.2

/-- What comes before the look of a call keeps the order. -/
theorem Opening.ordered {c : Call} (h : Opening now s c t) (hs : s.Ordered) : t.Ordered :=
  hs.of_retains (h.tracked hs.tracked) h.sameJob h.retains
    (fun vertex hsome => Or.inl ((h.starts_nothing vertex).2 hsome))
    fun vertex hsome => Or.inl ((h.starts_nothing vertex).1.symm.trans hsome)

/-- In a new job nothing has started, and only its sources are required, so it is `Ordered`. -/
theorem Ordered.of_submit {config : Config} {job : JobGraph} {backend : Backend}
    (h : submit config job backend now = .ok s) : s.Ordered := by
  have htracked := Tracked.of_submit h
  have hempty := graph_of_submit h
  refine ⟨htracked, ?_, ?_⟩
  · intro vertex hsome
    obtain ⟨r, hr⟩ := Option.isSome_iff_exists.1 hsome
    obtain ⟨order, -, -, rfl⟩ := submit_eq_ok h
    obtain ⟨v, -, hsource, hid, -⟩ := requirement_of_mem_sourceRequirements hr
    exact Or.inr (hid ▸ hsource)
  · intro e _ htarget
    rw [hempty, get?_empty] at htarget
    cases htarget

/-- In every state that a submitted job comes to, whatever it is told: the producers of a vertex
that has started have started; those that it consumes over a `blocking` edge, or over a `hybrid` one
if the settings ask for finished producers, are finished; and a finished vertex never changes
again. -/
theorem dependencies_respected {config : Config} {job : JobGraph} {backend : Backend}
    {start : Instant} (h : submit config job backend start = .ok s) (before after : History) :
    (∀ e ∈ job.edges, ((s.run before).graph.get? e.target).isSome = true →
      ((s.run before).graph.get? e.source).isSome = true ∧
        (e.exchange = .blocking ∨
            e.exchange = .hybrid ∧ config.consumeConstraint = .allProducersFinished →
          (s.run before).graph.isFinished e.source = true)) ∧
      ∀ (vertex : VertexId) (v : VertexExecution), (s.run before).graph.get? vertex = some v →
        v.isFinished = true → (s.run (before ++ after)).graph.get? vertex = some v := by
  have hsound := Sound.of_submit h
  have hordered : (s.run before).Ordered :=
    run_keeps hsound (fun _ _ _ _ hopen => hopen.ordered) (fun _ _ _ hstep => hstep.ordered)
      (.of_submit h) before
  have hjob := sameJob_run hsound before
  have hstart : s.config = config ∧ s.job = job := by
    obtain ⟨order, -, -, rfl⟩ := submit_eq_ok h
    exact ⟨rfl, rfl⟩
  constructor
  · intro e he htarget
    rw [← hstart.2, ← hjob.2.1] at he
    have hsupplied := hordered.supplied e he htarget
    refine ⟨hsupplied.started, fun hwaits => hsupplied.finished ?_⟩
    unfold WaitsForEnd
    rw [hjob.1, hstart.1]
    exact hwaits
  · intro vertex v hv hfinished
    rw [run_append]
    exact (retains_run (hsound.run before) after).finished vertex v hv hfinished

end Scheduler

/-! ## A run -/

namespace Sample

/-- A job with a consumer that waits until its producer is finished. -/
def chain : JobGraph where
  name := "chain"
  vertices := [{ id := "producer", parallelism := some 1 }, { id := "consumer" }]
  edges := [{ source := "producer", target := "consumer", exchange := .blocking }]

/-- The only attempt of the producer. -/
def producerAttempt : AttemptId :=
  { vertex := "producer", subtask := 0, generation := 1, number := 0 }

/-- The producer starts on a slot and finishes. -/
def chainStart : History :=
  [(.origin, .event (.resources (view 1))),
    (later, .event (.finished producerAttempt none (some 5)))]

/-- A late report about the producer, and another slot. -/
def chainRest : History :=
  [(latest, .event (.failed producerAttempt)), (latest, .event (.resources (view 2)))]

end Sample

namespace Scheduler

/-- When the `"consumer"` of the chain has started, its `"producer"` is finished, and stays as it
is. -/
theorem dependencies_respected_sample : ∃ s v,
    submit Sample.config Sample.chain .willing .origin = .ok s ∧
      ((s.run Sample.chainStart).graph.get? "consumer").isSome = true ∧
      (s.run Sample.chainStart).graph.isFinished "producer" = true ∧
      (s.run Sample.chainStart).graph.get? "producer" = some v ∧ v.isFinished = true ∧
      (s.run (Sample.chainStart ++ Sample.chainRest)).graph.get? "producer" = some v := by
  have htest : (submit Sample.config Sample.chain .willing .origin).toOption.any (fun s =>
      ((s.run Sample.chainStart).graph.get? "consumer").isSome) = true := by
    decide +kernel
  obtain ⟨s, hs, heval⟩ := exists_of_submit htest
  obtain ⟨hproducers, hstays⟩ := dependencies_respected hs Sample.chainStart Sample.chainRest
  obtain ⟨-, hfinished⟩ :=
    hproducers { source := "producer", target := "consumer", exchange := .blocking }
      List.mem_cons_self heval
  have hend := hfinished (Or.inl rfl)
  obtain ⟨v, hv, hv'⟩ := (Option.any_eq_true _ _).1 hend
  exact ⟨s, v, hs, heval, hend, hv, hv', hstays "producer" v hv hv'⟩

end Scheduler

end AdaptiveBatch
