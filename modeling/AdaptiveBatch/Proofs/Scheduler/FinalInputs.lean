import AdaptiveBatch.Proofs.Scheduler.Dependencies

/-! # Decisions from final statistics

The parallelism of a vertex is decided from what its producers have reported. The statistics are
taken anew from the execution each time, and most of them change while producers run. Those of a
finished producer do not: a finished vertex stays exactly as it is. So a vertex that consumes
blocking edges only is decided once and for all, since it does not start before its producers are
finished.

* **`ExecutionGraph.size?`** — the generation and the parallelism of a vertex, which only a new
  generation changes;
* **`Scheduler.InputsFinal`** — the producers of a vertex are finished;
* **`Scheduler.FinalInput`** — what is then known about an input;
* **`Scheduler.Informed`** — a vertex that has started has inputs that can be added up;
* **`Scheduler.decided_once`** — the statistics and the decision in every later state. -/

namespace AdaptiveBatch

/-! ## Generations and parallelisms -/

namespace ExecutionGraph

variable {g : ExecutionGraph} {vertex other : VertexId} {k : Nat} {f : Task → Task} {now : Instant}

/-- The generation and the parallelism of a vertex. -/
def size? (g : ExecutionGraph) (vertex : VertexId) : Option (Nat × Nat) :=
  (g.get? vertex).map fun v => (v.generation, v.parallelism)

/-- A vertex has a size iff it has started. -/
@[simp] theorem isSome_size? : (g.size? vertex).isSome = (g.get? vertex).isSome := Option.isSome_map

/-- The size of a vertex are the `generation` and the `parallelism` of its current execution. -/
theorem size?_eq_some_iff {generation parallelism : Nat} :
    g.size? vertex = some (generation, parallelism) ↔
      ∃ v, g.get? vertex = some v ∧ v.generation = generation ∧ v.parallelism = parallelism := by
  simp [size?]

/-- Changing a task changes no size. -/
@[simp] theorem size?_modifyTask : (g.modifyTask vertex k f).size? other = g.size? other := by
  unfold size?
  rw [get?_modifyTask]
  split
  · rw [Option.map_map]
    rfl
  · rfl

/-- One more attempt changes no size. -/
@[simp] theorem size?_push (a : Attempt) : (g.push a).size? other = g.size? other :=
  size?_modifyTask

/-- Cancellations change no size. -/
@[simp] theorem size?_cancelEach (ids : List AttemptId) :
    (g.cancelEach ids now).size? other = g.size? other :=
  cancelEach_keeps (J := fun g' => g'.size? other = g.size? other) rfl
    (fun _ _ _ hg => size?_modifyTask.trans hg) ids

/-- After `regenerate` the size of `vertex` is that of its next generation, and those of the others
are as before. -/
theorem size?_regenerate (parallelism : Nat) (other : VertexId) :
    (g.regenerate vertex parallelism now).size? other =
      if vertex = other then some (g.nextGeneration vertex, parallelism) else g.size? other := by
  unfold size?
  rw [get?_regenerate]
  split <;> rfl

end ExecutionGraph

/-- A traversal `l.mapM f` that succeeds has succeeded at every element. -/
theorem forall₂_of_mapM_eq_ok {α β ε : Type} {f : α → Except ε β} :
    ∀ {l : List α} {r : List β}, l.mapM f = .ok r → List.Forall₂ (fun a b => f a = .ok b) l r
  | [], r, h => by
    rw [List.mapM_nil] at h
    cases h
    exact .nil
  | a :: rest, r, h => by
    rw [List.mapM_cons] at h
    cases ha : f a with
    | error e => rw [ha] at h; cases h
    | ok b =>
      cases hrest : rest.mapM f with
      | error e => rw [ha, hrest] at h; cases h
      | ok bs =>
        rw [ha, hrest] at h
        cases h
        exact .cons ha (forall₂_of_mapM_eq_ok hrest)

/-- Only the elements of a list matter to its traversal: `f` and `g` may differ elsewhere. -/
theorem mapM_congr_mem {α β ε : Type} {f g : α → Except ε β} :
    ∀ {l : List α}, (∀ a ∈ l, f a = g a) → l.mapM f = l.mapM g
  | [], _ => rfl
  | a :: rest, h => by
    obtain ⟨ha, hrest⟩ := List.forall_mem_cons.1 h
    rw [List.mapM_cons, List.mapM_cons, ha, mapM_congr_mem hrest]

namespace Scheduler

open Scheduling ExecutionGraph

variable {s t : Scheduler} {now : Instant} {vertex : VertexId} {e : JobEdge}

/-! ## What is known about finished producers -/

/-- The producers of a vertex are finished. -/
def InputsFinal (s : Scheduler) (vertex : VertexId) : Prop :=
  ∀ e ∈ s.job.inputsOf vertex, s.graph.isFinished e.source = true

/-- What is known about an input whose producer is finished: it is complete, and its bytes are those
of all winners of the producer. -/
structure FinalInput (s : Scheduler) (e : JobEdge) (i : InputStatistics) : Prop where
  /-- It is the input over this edge. -/
  producer : i.producer = e.source
  /-- It is read in the way of this edge. -/
  exchange : i.exchange = e.exchange
  /-- Every task of the producer has finished. -/
  complete : i.isComplete = true
  /-- The bytes are those that its winners have produced. -/
  output : ∃ x, s.graph.get? e.source = some x ∧ x.isFinished = true ∧
    i.producedBytes = total (x.winners.map fun a => a.outputBytes.getD 0)

/-- What `statisticsOf` tells about an input whose producer is finished is a `FinalInput`. -/
theorem finalInput_of_statisticsOf {i : InputStatistics} (hs : s.graph.WellFormed)
    (hfinal : s.graph.isFinished e.source = true) (h : s.statisticsOf e = .ok i) :
    s.FinalInput e i := by
  obtain ⟨x, hx, hend⟩ := (Option.any_eq_true _ _).1 hfinal
  have hpos := (hs _ x hx).parallelism_pos
  unfold statisticsOf at h
  rw [hx] at h
  simp only [VertexExecution.totalOutput?, hend, VertexExecution.finishedOutput, Word.sum_eq] at h
  by_cases hfits : total (x.winners.map fun a => a.outputBytes.getD 0) < Word.limit
  · rw [if_pos hfits] at h
    cases h
    refine ⟨rfl, rfl, ?_, x, hx, hend, rfl⟩
    simp [InputStatistics.isComplete, InputStatistics.withAllFinished, hpos]
  · rw [if_neg hfits] at h
    cases h

/-- Nothing changes what is known about finished producers: `inputStatistics` is the same in every
state that retains them. -/
theorem InputsFinal.inputStatistics_eq (h : s.InputsFinal vertex) (hjob : s.SameJob t)
    (hretains : s.graph.Retains t.graph) : t.inputStatistics vertex = s.inputStatistics vertex := by
  have hsame : ∀ e ∈ s.job.inputsOf vertex, t.statisticsOf e = s.statisticsOf e := by
    intro e he
    obtain ⟨x, hx, hend⟩ := (Option.any_eq_true _ _).1 (h e he)
    unfold statisticsOf
    rw [hretains.finished _ x hx hend, hx]
  unfold inputStatistics
  rw [hjob.2.1]
  exact mapM_congr_mem hsame

/-- The decision does not change either, whatever slots are `available`. -/
theorem InputsFinal.decideParallelism_eq (h : s.InputsFinal vertex) (hjob : s.SameJob t)
    (hretains : s.graph.Retains t.graph) (available : Option ResourceView) :
    t.decideParallelism vertex available = s.decideParallelism vertex available := by
  unfold decideParallelism sizing
  rw [h.inputStatistics_eq hjob hretains, hjob.1, hjob.2.1]

/-- Producers that are finished stay so, as long as the graph `Retains` them. -/
theorem InputsFinal.of_retains (h : s.InputsFinal vertex) (hjob : s.SameJob t)
    (hretains : s.graph.Retains t.graph) : t.InputsFinal vertex := by
  intro e he
  rw [hjob.2.1] at he
  exact hretains.isFinished (h e he)

/-- If all producers are finished, every input is a `FinalInput`, edge by edge. -/
theorem InputsFinal.finalInputs (h : s.InputsFinal vertex) (hs : s.graph.WellFormed)
    {inputs : List InputStatistics} (hinputs : s.inputStatistics vertex = .ok inputs) :
    List.Forall₂ s.FinalInput (s.job.inputsOf vertex) inputs := by
  have hboth := (List.forall₂_and_left _ _).2 ⟨h, forall₂_of_mapM_eq_ok hinputs⟩
  exact hboth.imp fun e i hi => finalInput_of_statisticsOf hs hi.1 hi.2

/-- A vertex whose inputs are supplied has final inputs, if it consumes `.blocking` edges only. -/
theorem inputsFinal_of_supplied (hblocking : ∀ e ∈ s.job.inputsOf vertex, e.exchange = .blocking)
    (hsupplied : ∀ e ∈ s.job.inputsOf vertex, s.Supplied e) : s.InputsFinal vertex :=
  fun e he => (hsupplied e he).finished (Or.inl (hblocking e he))

/-- A vertex that has started has final inputs, if it consumes `.blocking` edges only. -/
theorem Ordered.inputsFinal (h : s.Ordered)
    (hblocking : ∀ e ∈ s.job.inputsOf vertex, e.exchange = .blocking)
    (hstarted : (s.graph.get? vertex).isSome = true) : s.InputsFinal vertex := by
  apply inputsFinal_of_supplied hblocking
  intro e he
  obtain ⟨hmem, rfl⟩ := JobGraph.mem_inputsOf.1 he
  exact h.supplied e hmem hstarted

/-! ## Starts -/

/-- A look starts no vertex with inputs: where `isSource` is false, what had not started has not
after it. -/
theorem Ordered.get?_look_eq_none (h : s.Ordered) (hinputs : s.job.isSource vertex = false)
    (hnew : s.graph.get? vertex = none) :
    ((Scheduler.look now).final s).graph.get? vertex = none := by
  obtain ⟨action, heval, -, hrealized⟩ := ensures_final.1 (ensures_look h.tracked now)
  rw [← Option.not_isSome_iff_eq_none, hrealized.isSome_eq, hnew]
  intro hsome
  -- What a look starts has a requirement, so it is a source or has started before.
  obtain ⟨p, hp⟩ := Option.isSome_iff_exists.1 ((Bool.or_false _).symm.trans hsome)
  obtain ⟨r, hr, -⟩ := h.tracked.coherent.exists_requirement heval hp
  rcases h.rooted vertex (by rw [hr]; rfl) with hstarted | hsource
  · rw [hnew] at hstarted
    cases hstarted
  · rw [hinputs] at hsource
    cases hsource

/-- A look at the resources of a job that runs changes no execution, and the job still runs. -/
theorem graph_look_of_executing (hexecuting : s.isExecuting = true) (now : Instant) :
    ((look now).final s).graph = s.graph ∧ ((look now).final s).isExecuting = true := by
  refine (ensures_final (P := fun t => t.graph = s.graph ∧ t.isExecuting = true)).1 ?_
  unfold look
  rw [ensures_bind, ensures_onController]
  refine ⟨?_, fun _ _ => ⟨rfl, hexecuting⟩⟩
  intro action c hc
  cases RescaleController.evaluate_eq_ok hc with
  | idle => exact ⟨rfl, hexecuting⟩
  | scale => exact ⟨rfl, rfl⟩
  | wait waiting | start waiting | startReduced waiting | insufficient waiting =>
    -- The job would wait for its slots.
    rw [isExecuting, waiting] at hexecuting
    cases hexecuting

/-- The vertex has not started, or it has started as large as is decided for it. -/
def FirstAsDecided (s : Scheduler) (vertex : VertexId) : Prop :=
  s.graph.get? vertex = none ∨ s.isExecuting = true ∧ ∃ parallelism,
    s.graph.size? vertex = some (1, parallelism) ∧
      s.decideParallelism vertex (some s.view) = .ok parallelism

/-- A vertex that had not started before, and has not after, has not started otherwise than
decided. -/
theorem FirstAsDecided.of_new (hnew : s.graph.get? vertex = none)
    (hsame : (t.graph.get? vertex).isSome = (s.graph.get? vertex).isSome) :
    t.FirstAsDecided vertex := by
  rw [hnew] at hsame
  exact Or.inl (Option.not_isSome_iff_eq_none.1 (Bool.eq_false_iff.1 hsame))

/-- A ready vertex starts as large as is decided for it from its final inputs, in generation `1`. -/
theorem firstAsDecided_started {v : JobVertex} {inputs : List InputStatistics}
    (hstep : Step now s (s.started v inputs vertex now)) (hexecuting : s.isExecuting = true)
    (hnew : s.graph.get? vertex = none) (hfinal : s.InputsFinal vertex)
    (hv : s.job.get? vertex = some v) (hinputs : s.inputStatistics vertex = .ok inputs) :
    (s.started v inputs vertex now).FirstAsDecided vertex := by
  refine Or.inr ⟨hexecuting, s.sizing.decideWithin v inputs (some s.view), ?_, ?_⟩
  · show (s.graph.regenerate vertex _ now).size? vertex = _
    rw [size?_regenerate, if_pos rfl, nextGeneration, hnew]
    rfl
  · rw [hfinal.decideParallelism_eq hstep.sameJob hstep.retains, hstep.view_eq]
    unfold decideParallelism
    rw [hv, hinputs]
    rfl

/-- A step of a call that starts a vertex does so as large as is decided for it, and other steps
leave its size and the decision. -/
theorem Step.firstAsDecided (h : Step now s t) (hs : s.Ordered)
    (hsource : s.job.isSource vertex = false)
    (hblocking : ∀ e ∈ s.job.inputsOf vertex, e.exchange = .blocking)
    (hfirst : s.FirstAsDecided vertex) : t.FirstAsDecided vertex := by
  rcases hfirst with hnew | ⟨hexecuting, p, hsize, hdecide⟩
  · cases h with
    | place => exact .of_new hnew (isSome_get?_modifyTask vertex)
    | @start v inputs id executing live mem_order new ready vertex_eq inputs_eq pos =>
      by_cases heq : id = vertex
      · subst heq
        have hfinal := inputsFinal_of_supplied hblocking fun e he =>
          supplied_of_inputReady (List.all_eq_true.1 ready e he)
        exact firstAsDecided_started
          (.start executing live mem_order new ready vertex_eq inputs_eq pos) executing new hfinal
          vertex_eq inputs_eq
      · exact .of_new hnew ((isSome_get?_regenerate _ vertex).trans (if_neg heq))
    | look => exact Or.inl (hs.get?_look_eq_none hsource hnew)
    | giveUp => exact .of_new hnew (sameSizes_cancelEach _ vertex).1
    | react | count => exact .of_new hnew rfl
  · -- The vertex has started, so its inputs are final and the decision stays.
    have hstarted : (s.graph.get? vertex).isSome = true := by rw [← isSome_size?, hsize]; rfl
    have hfinal := hs.inputsFinal hblocking hstarted
    have hkeeps (hexecuting' : t.isExecuting = true)
        (hsize' : t.graph.size? vertex = s.graph.size? vertex) : t.FirstAsDecided vertex := by
      refine Or.inr ⟨hexecuting', p, hsize'.trans hsize, ?_⟩
      rw [hfinal.decideParallelism_eq h.sameJob h.retains, h.view_eq]
      exact hdecide
    cases h with
    | place => exact hkeeps hexecuting (size?_push _)
    | @start v inputs id executing live mem_order new =>
      have hne : id ≠ vertex := by
        rintro rfl
        rw [new] at hstarted
        cases hstarted
      exact hkeeps hexecuting ((size?_regenerate _ vertex).trans (if_neg hne))
    | look =>
      obtain ⟨hgraph, hexecuting'⟩ := graph_look_of_executing hexecuting now
      exact hkeeps hexecuting' (by rw [hgraph])
    | giveUp => exact hkeeps hexecuting (size?_cancelEach _)
    | react | count => exact hkeeps hexecuting rfl

/-! ## Statistics of vertices that have started -/

/-- The inputs of a vertex that has started can be added up. -/
def Informed (s : Scheduler) (vertex : VertexId) : Prop :=
  (s.graph.get? vertex).isSome = true → ∃ inputs, s.inputStatistics vertex = .ok inputs

/-- A decision is taken from statistics: where `decideParallelism` succeeds, `inputStatistics`
does. -/
theorem exists_inputStatistics {available : Option ResourceView} {parallelism : Nat}
    (h : s.decideParallelism vertex available = .ok parallelism) :
    ∃ inputs, s.inputStatistics vertex = .ok inputs := by
  unfold decideParallelism at h
  cases hv : s.job.get? vertex with
  | none => rw [hv] at h; cases h
  | some v =>
    cases hinputs : s.inputStatistics vertex with
    | error o => rw [hv, hinputs] at h; cases h
    | ok inputs => exact ⟨inputs, rfl⟩

/-- A vertex that has started stays `Informed`, as nothing changes what is known about its finished
producers. -/
theorem Informed.of_retains (h : s.Informed vertex) (hs : s.Ordered)
    (hblocking : ∀ e ∈ s.job.inputsOf vertex, e.exchange = .blocking) (hjob : s.SameJob t)
    (hretains : s.graph.Retains t.graph) (hstarted : (s.graph.get? vertex).isSome = true) :
    t.Informed vertex := by
  intro _
  obtain ⟨inputs, hinputs⟩ := h hstarted
  have hfinal := hs.inputsFinal hblocking hstarted
  exact ⟨inputs, (hfinal.inputStatistics_eq hjob hretains).trans hinputs⟩

/-- A step of a call keeps a vertex `Informed`: it starts only if its inputs can be added up. -/
theorem Step.informed (hstep : Step now s t) (hs : s.Ordered)
    (hsource : s.job.isSource vertex = false)
    (hblocking : ∀ e ∈ s.job.inputsOf vertex, e.exchange = .blocking) (h : s.Informed vertex) :
    t.Informed vertex := by
  by_cases hstarted : (s.graph.get? vertex).isSome = true
  · exact h.of_retains hs hblocking hstep.sameJob hstep.retains hstarted
  · -- A vertex that starts with this step is decided from statistics.
    rcases hstep.firstAsDecided hs hsource hblocking
      (Or.inl (Option.not_isSome_iff_eq_none.1 hstarted)) with hnew | ⟨-, p, -, hdecide⟩
    · intro hsome
      rw [hnew] at hsome
      cases hsome
    · exact fun _ => exists_inputStatistics hdecide

/-- What comes before the look of a call keeps a vertex `Informed`. -/
theorem Opening.informed {c : Call} (hopen : Opening now s c t) (hs : s.Ordered)
    (hblocking : ∀ e ∈ s.job.inputsOf vertex, e.exchange = .blocking) (h : s.Informed vertex) :
    t.Informed vertex := by
  intro hsome
  have hstarted := (hopen.starts_nothing vertex).1.symm.trans hsome
  exact h.of_retains hs hblocking hopen.sameJob hopen.retains hstarted hsome

/-! ## Runs -/

section Run

variable {config : Config} {job : JobGraph} {backend : Backend} {start : Instant}

/-- The order of the job is respected and its vertex is `Informed`, whatever has been told to it. -/
theorem ordered_and_informed_run (h : submit config job backend start = .ok s)
    (hsource : job.isSource vertex = false)
    (hblocking : ∀ e ∈ job.inputsOf vertex, e.exchange = .blocking) (history : History) :
    (s.run history).job = job ∧ (s.run history).Ordered ∧ (s.run history).Informed vertex := by
  have hjob : s.job = job := by
    obtain ⟨order, -, -, rfl⟩ := submit_eq_ok h
    rfl
  have hinit : s.Informed vertex := by
    intro hsome
    rw [graph_of_submit h, get?_empty] at hsome
    cases hsome
  refine run_keeps (J := fun t => t.job = job ∧ t.Ordered ∧ t.Informed vertex) (.of_submit h) ?_ ?_
    ⟨hjob, .of_submit h, hinit⟩ history
  · rintro now t c u hopen ⟨rfl, hordered, hinformed⟩
    exact ⟨hopen.sameJob.2.1, hopen.ordered hordered, hopen.informed hordered hblocking hinformed⟩
  · rintro now t u hstep ⟨rfl, hordered, hinformed⟩
    exact ⟨hstep.sameJob.2.1, hstep.ordered hordered,
      hstep.informed hordered hsource hblocking hinformed⟩

/-- A vertex with inputs is one of the job: it is the `target` of an edge. -/
theorem exists_vertex_of_inputs (h : submit config job backend start = .ok s)
    (hinputs : job.inputsOf vertex ≠ []) : ∃ v, job.get? vertex = some v := by
  obtain ⟨order, horder, -⟩ := submit_eq_ok h
  obtain ⟨e, he⟩ := List.exists_mem_of_ne_nil _ hinputs
  obtain ⟨hmem, rfl⟩ := JobGraph.mem_inputsOf.1 he
  exact JobGraph.exists_target horder hmem

/-- A vertex that a call starts is as large as is decided for it when the call has ended,
`FirstAsDecided`. -/
theorem firstAsDecided_after (hs : s.Sound) (hordered : s.Ordered)
    (hsource : s.job.isSource vertex = false)
    (hblocking : ∀ e ∈ s.job.inputsOf vertex, e.exchange = .blocking)
    (hnew : s.graph.get? vertex = none) (now : Instant) (c : Call) :
    (s.after now c).FirstAsDecided vertex := by
  suffices h : (s.after now c).job = s.job ∧ (s.after now c).Ordered ∧
      (s.after now c).FirstAsDecided vertex from h.2.2
  refine after_keeps (J := fun t => t.job = s.job ∧ t.Ordered ∧ t.FirstAsDecided vertex) hs ?_ ?_
    ⟨rfl, hordered, Or.inl hnew⟩
  · rintro t hopen ⟨-, hs, -⟩
    exact ⟨hopen.sameJob.2.1, hopen.ordered hs, .of_new hnew (hopen.starts_nothing vertex).1⟩
  · rintro t u hstep ⟨hjob, ht, hfirst⟩
    rw [← hjob] at hsource hblocking
    exact ⟨hstep.sameJob.2.1.trans hjob, hstep.ordered ht,
      hstep.firstAsDecided ht hsource hblocking hfirst⟩

/-- **Decided once, from final statistics.** Let all inputs of a vertex be read over `blocking`
edges. Once the vertex has started, its `inputStatistics` and what is decided for it
(`decideParallelism`), for any slots or none, are the same after whatever is told to the job; every
input is complete, with the bytes of all winners of its producer (`FinalInput`). When a call starts
the vertex, it starts in its first generation, as large as is decided for it and the slots of that
moment. -/
theorem decided_once (h : submit config job backend start = .ok s)
    (hinputs : job.inputsOf vertex ≠ [])
    (hblocking : ∀ e ∈ job.inputsOf vertex, e.exchange = .blocking) (before after : History) :
    (((s.run before).graph.get? vertex).isSome = true → ∃ inputs,
      (s.run before).inputStatistics vertex = .ok inputs ∧
      (s.run (before ++ after)).inputStatistics vertex = .ok inputs ∧
      List.Forall₂ (s.run (before ++ after)).FinalInput (job.inputsOf vertex) inputs ∧
      ∀ available, ∃ p, (s.run before).decideParallelism vertex available = .ok p ∧
        (s.run (before ++ after)).decideParallelism vertex available = .ok p) ∧
    ∀ now c e, (s.run before).graph.get? vertex = none →
      (s.run (before ++ [(now, c)])).graph.get? vertex = some e → e.generation = 1 ∧
        (s.run (before ++ [(now, c)])).decideParallelism vertex
          (some (s.run (before ++ [(now, c)])).view) = .ok e.parallelism := by
  have hsound := (Sound.of_submit h).run before
  have hsource : job.isSource vertex = false := by simp [JobGraph.isSource, hinputs]
  obtain ⟨hjob, hordered, hinformed⟩ := ordered_and_informed_run h hsource hblocking before
  subst hjob
  constructor
  · intro hstarted
    obtain ⟨inputs, hstatistics⟩ := hinformed hstarted
    have hfinal := hordered.inputsFinal hblocking hstarted
    have hsame := sameJob_run hsound after
    have hretains := retains_run hsound after
    rw [← run_append] at hsame hretains
    have hlater : (s.run (before ++ after)).inputStatistics vertex = .ok inputs :=
      (hfinal.inputStatistics_eq hsame hretains).trans hstatistics
    refine ⟨inputs, hstatistics, hlater, ?_, ?_⟩
    · rw [← hsame.2.1]
      exact (hfinal.of_retains hsame hretains).finalInputs
        ((Sound.of_submit h).run (before ++ after)).wellFormed hlater
    · intro available
      obtain ⟨v, hv⟩ := exists_vertex_of_inputs h hinputs
      have hdecide : (s.run before).decideParallelism vertex available =
          .ok ((s.run before).sizing.decideWithin v inputs available) := by
        unfold decideParallelism
        rw [hv, hstatistics]
        rfl
      exact ⟨_, hdecide, (hfinal.decideParallelism_eq hsame hretains available).trans hdecide⟩
  · intro now c e hnew he
    rw [run_append] at he ⊢
    rcases firstAsDecided_after hsound hordered hsource hblocking hnew now c with
      hnone | ⟨-, p, hsize, hdecide⟩
    · rw [show (s.run before).run [(now, c)] = (s.run before).after now c from rfl, hnone] at he
      cases he
    · obtain ⟨e', he', hgeneration, hparallelism⟩ := size?_eq_some_iff.1 hsize
      obtain rfl : e' = e := Option.some.inj (he'.symm.trans he)
      subst hparallelism
      exact ⟨hgeneration, hdecide⟩

end Run

/-- The `"consumer"` of the chain starts with the second call, on the final statistics of its
producer, and a late report about the producer changes nothing. -/
theorem decided_once_sample : ∃ s inputs e,
    submit Sample.config Sample.chain .willing .origin = .ok s ∧
      ((s.run Sample.chainStart).graph.get? "consumer") = some e ∧
      (s.run Sample.chainStart).inputStatistics "consumer" = .ok inputs ∧
      (s.run (Sample.chainStart ++ Sample.chainRest)).inputStatistics "consumer" = .ok inputs ∧
      e.generation = 1 ∧ (s.run Sample.chainStart).decideParallelism "consumer"
        (some (s.run Sample.chainStart).view) = .ok e.parallelism := by
  have htest : (submit Sample.config Sample.chain .willing .origin).toOption.any (fun s =>
      ((s.run (Sample.chainStart.take 1)).graph.get? "consumer").isNone &&
        ((s.run Sample.chainStart).graph.get? "consumer").isSome) = true := by
    decide +kernel
  obtain ⟨s, hs, heval⟩ := exists_of_submit htest
  obtain ⟨hnone, hsome⟩ := Bool.and_eq_true_iff.1 heval
  obtain ⟨e, he⟩ := Option.isSome_iff_exists.1 hsome
  have hinputs : Sample.chain.inputsOf "consumer" ≠ [] := by decide
  have hblocking : ∀ e ∈ Sample.chain.inputsOf "consumer", e.exchange = .blocking := by decide
  obtain ⟨hstatistics, -⟩ :=
    decided_once hs hinputs hblocking Sample.chainStart Sample.chainRest
  obtain ⟨inputs, hbefore, hafter, -, -⟩ := hstatistics hsome
  obtain ⟨-, hfirst⟩ := decided_once hs hinputs hblocking (Sample.chainStart.take 1) []
  obtain ⟨hgeneration, hdecide⟩ := hfirst _ _ e (Option.isNone_iff_eq_none.1 hnone) he
  exact ⟨s, inputs, e, hs, he, hbefore, hafter, hgeneration, hdecide⟩

end Scheduler

end AdaptiveBatch
