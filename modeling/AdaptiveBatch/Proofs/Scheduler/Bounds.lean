import AdaptiveBatch.Proofs.Rescale.Fit
import AdaptiveBatch.Proofs.Scheduler.Tracking

/-! # Parallelisms stay within the bounds of their vertices

A vertex starts with the parallelism that is decided for it, and later with the one that a plan or a
request for a restart gives it. Plans and requests are made from requirements, which are made from the
bounds of the vertices. A request may be carried out late, when other requirements hold; but it was made
from the bounds of the same vertices, and these never change. It never speaks about a vertex that is not
elastic, and a plan gives such a vertex what it has already; so it is never started again.

* **`Requirement.Spans`** — what a plan may give a vertex: as many tasks as it accepts, and no more than
  it desires;
* **`Sizing.Derives`**, **`VertexExecution.Conforms`**, **`ScaleRequest.Permitted`** — requirements,
  generations and requests that agree with the job;
* **`Scheduler.Sized`** — the invariant, kept by every call that carries out permitted requests only;
* **`Scheduler.Tracked.drives`** — the scheduler drives its controller as a controller has to be driven for
  every start to fit;
* **`Scheduler.parallelism_within_bounds`** — the parallelism and the generation of every vertex in every
  faithful history. -/

namespace AdaptiveBatch

/-! ## Requirements -/

/-- A vertex with the requirement runs as so many tasks: as many as it accepts, and no more than it
desires. -/
structure Requirement.Spans (r : Requirement) (p : Nat) : Prop where
  /-- As many as it accepts. -/
  min_le : r.min ≤ p
  /-- No more than it desires. -/
  le_desired : p ≤ r.desired

/-- A controller plans nothing but what a requirement `Spans`, on its own. -/
theorem Requirement.closed_spans {proper : VertexId → Requirement → Prop}
    (hle : ∀ (vertex : VertexId) (r : Requirement), proper vertex r → r.min ≤ r.desired) :
    Closed proper Spans where
  desired vertex r hr := ⟨hle vertex r hr, Nat.le_refl _⟩
  reduced vertex r _ _ hr _ hspans :=
    ⟨Nat.le_max_right _ _,
      Nat.max_le.2 ⟨Nat.le_trans (Nat.min_le_left _ _) hspans.le_desired, hle vertex r hr⟩⟩
  achievable vertex r slots hr _ :=
    ⟨min_le_achievable (hle vertex r hr) slots, achievable_le (hle vertex r hr) slots⟩

namespace Sizing

variable {sizing : Sizing} {v : JobVertex} {p : Nat}

/-- What the requirement of a vertex `Spans` lies within the bounds of the vertex. -/
theorem contains_of_spans (hv : sizing.validateVertex v = .ok ()) {inputs : List InputStatistics}
    (h : (sizing.requirement v inputs).Spans p) : (sizing.bounds v).contains p = true := by
  obtain ⟨hmin, hmax⟩ := requirement_within_bounds hv inputs
  exact Bounds.contains_iff.2 ⟨Nat.le_trans hmin h.min_le, Nat.le_trans h.le_desired hmax⟩

/-- The requirement of a vertex that is not elastic leaves no choice but
`sizing.staticParallelism v`. -/
theorem eq_static_of_spans (helastic : sizing.isElastic v = false) {inputs : List InputStatistics}
    (h : (sizing.requirement v inputs).Spans p) : p = sizing.staticParallelism v := by
  obtain ⟨hmin, hmax⟩ := h
  unfold requirement at hmin hmax
  simp only [helastic, Bool.false_eq_true, if_false] at hmin hmax
  rw [← decide_of_not_elastic helastic inputs]
  exact Nat.le_antisymm hmax hmin

/-- A vertex starts with what its requirement allows: it `Spans` the decision for a view. -/
theorem spans_decideWithin (hv : sizing.validateVertex v = .ok ()) (inputs : List InputStatistics)
    (view : ResourceView) :
    (sizing.requirement v inputs).Spans (sizing.decideWithin v inputs (some view)) := by
  have hle := (requirement_valid hv inputs).min_le_desired
  rw [decideWithin_eq_achievable]
  exact ⟨Requirement.min_le_achievable hle _, Requirement.achievable_le hle _⟩

/-- The requirement of a vertex is `Regular`: fixed, or made of two bounds. -/
theorem regular_requirement (sizing : Sizing) (v : JobVertex) (inputs : List InputStatistics) :
    (sizing.requirement v inputs).Regular := by
  unfold requirement
  split
  · exact Or.inr ⟨_, _, rfl⟩
  · exact Or.inl ⟨_, rfl⟩

/-- The requirement is the one of the vertex of the job, for some inputs. -/
def Derives (sizing : Sizing) (job : JobGraph) (vertex : VertexId) (r : Requirement) : Prop :=
  ∃ v inputs, job.get? vertex = some v ∧ sizing.validateVertex v = .ok () ∧
    r = sizing.requirement v inputs

/-- A requirement that belongs to a vertex of the job has `r.min ≤ r.desired`. -/
theorem Derives.min_le_desired {job : JobGraph} {vertex : VertexId} {r : Requirement}
    (h : sizing.Derives job vertex r) : r.min ≤ r.desired := by
  obtain ⟨v, inputs, -, hvalid, rfl⟩ := h
  exact (requirement_valid hvalid inputs).min_le_desired

end Sizing

/-! ## Generations -/

/-- A generation of a vertex that is as large as its vertex allows. -/
structure VertexExecution.Conforms (sizing : Sizing) (v : JobVertex) (e : VertexExecution) :
    Prop where
  /-- The parallelism lies within the bounds. -/
  contains : (sizing.bounds v).contains e.parallelism = true
  /-- A vertex that is not elastic runs in its first generation. -/
  static : sizing.isElastic v = false →
    e.generation = 1 ∧ e.parallelism = sizing.staticParallelism v

namespace ExecutionGraph

variable {g : ExecutionGraph} {sizing : Sizing} {job : JobGraph} {vertex : VertexId} {k : Nat}
  {f : Task → Task} {now : Instant}

/-- Every generation is as large as its vertex allows. -/
def Conforms (g : ExecutionGraph) (sizing : Sizing) (job : JobGraph) : Prop :=
  ∀ (vertex : VertexId) (e : VertexExecution), g.get? vertex = some e →
    ∃ v, job.get? vertex = some v ∧ e.Conforms sizing v

/-- Changing a task changes no parallelism and no generation, so the graph still `Conforms`. -/
theorem Conforms.modifyTask (h : g.Conforms sizing job) :
    (g.modifyTask vertex k f).Conforms sizing job := by
  intro other e he
  rw [get?_modifyTask] at he
  split at he
  · obtain ⟨old, hold, rfl⟩ := Option.map_eq_some_iff.1 he
    obtain ⟨v, hv, hconforms⟩ := h other old hold
    exact ⟨v, hv, hconforms.contains, hconforms.static⟩
  · exact h other e he

/-- Cancellations change no parallelism and no generation. -/
theorem Conforms.cancelEach (h : g.Conforms sizing job) (ids : List AttemptId) :
    (g.cancelEach ids now).Conforms sizing job :=
  cancelEach_keeps (J := fun g => g.Conforms sizing job) h (fun _ _ _ hg => hg.modifyTask) ids

/-- An elastic vertex may start over within its bounds, any other vertex starts once, with
`staticParallelism`. -/
theorem Conforms.regenerate (h : g.Conforms sizing job) {v : JobVertex} {p : Nat}
    (hv : job.get? vertex = some v) (hcontains : (sizing.bounds v).contains p = true)
    (hstatic : sizing.isElastic v = false → g.get? vertex = none ∧ p = sizing.staticParallelism v) :
    (g.regenerate vertex p now).Conforms sizing job := by
  intro other e he
  rw [get?_regenerate] at he
  split at he
  · next heq =>
    subst heq
    cases he
    refine ⟨v, hv, hcontains, ?_⟩
    intro helastic
    obtain ⟨hnone, hp⟩ := hstatic helastic
    refine ⟨?_, hp⟩
    show g.nextGeneration vertex = 1
    rw [nextGeneration, hnone]
    rfl
  · exact h other e he

end ExecutionGraph

/-- A request that speaks about elastic vertices of the job only, and keeps their bounds. -/
def ScaleRequest.Permitted (sizing : Sizing) (job : JobGraph) (request : ScaleRequest) : Prop :=
  ∀ (vertex : VertexId) (p : Nat), request.plan[vertex]? = some p →
    ∃ v, job.get? vertex = some v ∧ sizing.isElastic v = true ∧
      (sizing.bounds v).contains p = true

/-! ## The invariant -/

namespace Scheduler

open Scheduling ExecutionGraph

variable {s t : Scheduler} {now : Instant} {sizing : Sizing} {job : JobGraph}

/-- The requirements and the generations agree with the job. -/
structure Sized (sizing : Sizing) (job : JobGraph) (s : Scheduler) : Prop where
  /-- The controller and the execution speak about the same vertices. -/
  tracked : s.Tracked
  /-- The rules that decide parallelisms. -/
  sizing_eq : s.sizing = sizing
  /-- The job. -/
  job_eq : s.job = job
  /-- The plans of the controller are made from requirements of the job. -/
  plans : s.controller.Plans (sizing.Derives job) Requirement.Spans
  /-- Every generation is as large as its vertex allows. -/
  conforms : s.graph.Conforms sizing job

/-- What a controller plans for a vertex of the job lies between what it accepts and what it
desires. -/
theorem closed_derives :
    Requirement.Closed (sizing.Derives job) Requirement.Spans :=
  Requirement.closed_spans fun _ _ hr => hr.min_le_desired

/-- Only the controller and the generations matter for `Sized`, as long as the job is the same. -/
theorem Sized.of_sameJob (h : s.Sized sizing job) (ht : t.Tracked) (hjob : s.SameJob t)
    (hplans : t.controller.Plans (sizing.Derives job) Requirement.Spans)
    (hconforms : t.graph.Conforms sizing job) : t.Sized sizing job where
  tracked := ht
  sizing_eq := by
    rw [← h.sizing_eq]
    unfold Scheduler.sizing
    rw [hjob.1]
  job_eq := hjob.2.1.trans h.job_eq
  plans := hplans
  conforms := hconforms

/-- A look restarts a vertex with what a plan gives it, so the graph still `Conforms`. A vertex that
is not elastic has that already, or has not started. -/
theorem Sized.conforms_look (h : s.Sized sizing job) :
    ((look now).final s).graph.Conforms sizing job := by
  refine look_keeps_planned (J := fun t => t.graph.Conforms sizing job) h.conforms
    (fun _ _ _ => h.conforms) ?_ (fun _ _ ht => ht) fun _ _ ht => ht.cancelEach _
  intro plan reduced c heval t vertex p hp _ hneeds ht
  obtain ⟨r, hr, hspans⟩ := h.plans.exists_requirement closed_derives heval hp
  obtain ⟨v, inputs, hv, hvalid, rfl⟩ := h.plans.proper vertex r hr
  refine Conforms.regenerate ht hv (Sizing.contains_of_spans hvalid hspans) ?_
  intro helastic
  have hstatic := Sizing.eq_static_of_spans helastic hspans
  refine ⟨?_, hstatic⟩
  cases he : t.graph.get? vertex with
  | none => rfl
  | some e =>
    obtain ⟨w, hw, hconforms⟩ := ht vertex e he
    obtain rfl : v = w := Option.some.inj (hv.symm.trans hw)
    have hsame : e.parallelism = p := (hconforms.static helastic).2.trans hstatic.symm
    unfold needsGeneration at hneeds
    rw [he] at hneeds
    simp [hsame] at hneeds

/-- Every step of a call keeps the generations and the plans `Sized`. -/
theorem Step.sized (h : Step now s t) (hs : s.Sized sizing job) : t.Sized sizing job := by
  have hkeeps := hs.of_sameJob (h.tracked hs.tracked) h.sameJob
  cases h with
  | place => exact hkeeps hs.plans hs.conforms.modifyTask
  | @start v inputs id executing live mem_order new ready vertex_eq inputs_eq pos =>
    obtain rfl := hs.sizing_eq
    obtain rfl := hs.job_eq
    have hvalid := admitted_get? hs.tracked.admitted vertex_eq
    have hspans := Sizing.spans_decideWithin hvalid inputs s.view
    have hnew := hs.tracked.requirement_eq_none executing new
    refine hkeeps (hs.plans.track executing hnew ⟨v, inputs, vertex_eq, hvalid, rfl⟩ hspans) ?_
    exact hs.conforms.regenerate vertex_eq (Sizing.contains_of_spans hvalid hspans)
      fun helastic => ⟨new, Sizing.decideWithin_of_not_elastic helastic inputs _⟩
  | look =>
    obtain ⟨action, heval⟩ := exists_evaluated_look s now
    exact hkeeps (hs.plans.evaluated closed_derives heval) hs.conforms_look
  | giveUp => exact hkeeps hs.plans (hs.conforms.cancelEach _)
  | react | count => exact hkeeps hs.plans hs.conforms

/-- A request that is `Permitted`, which speaks about elastic vertices only, may be carried out at
any time. -/
theorem Sized.conforms_restartAll (h : s.Sized sizing job) {request : ScaleRequest}
    (hrequest : request.Permitted sizing job) :
    ((restartAll request now).final s).graph.Conforms sizing job := by
  refine restartAll_keeps_planned (J := fun t => t.graph.Conforms sizing job) h.conforms ?_
    fun _ ht => ht
  intro t vertex p hp _ _ ht
  obtain ⟨v, hv, helastic, hcontains⟩ := hrequest vertex p hp
  refine Conforms.regenerate ht hv hcontains ?_
  intro hfixed
  rw [helastic] at hfixed
  cases hfixed

/-- What comes before the look of a call keeps the job `Sized`, if a request that it carries out is
`Permitted`. -/
theorem Opening.sized {c : Call} (h : Opening now s c t) (hs : s.Sized sizing job)
    (hrequest : ∀ request, c = .event (.scaled request) → request.Permitted sizing job) :
    t.Sized sizing job := by
  have hkeeps := hs.of_sameJob (h.tracked hs.tracked) h.sameJob
  cases h with
  | nothing | tick => exact hkeeps hs.plans hs.conforms
  | running | progress | failed => exact hkeeps hs.plans hs.conforms.modifyTask
  | finished =>
    apply hkeeps
    · unfold won
      split
      · exact hs.plans.untrack _
      · exact hs.plans
    · unfold won
      split <;> exact hs.conforms.modifyTask
  | resources => exact hkeeps (hs.plans.withView _) hs.conforms
  | @scaled request =>
    refine hkeeps ?_ (hs.conforms_restartAll (hrequest request rfl))
    exact restartAll_keeps (J := fun t => t.controller.Plans (sizing.Derives job) Requirement.Spans)
      hs.plans (fun _ _ _ _ _ ht => ht) fun _ ht => ht.awaitRestart now

/-- A restart is asked for only of elastic vertices, within their bounds: the request is
`Permitted`. -/
theorem Sized.permitted_of_answer (hs : s.Sized sizing job) (hsound : s.Sound) {c : Call}
    (hrequest : ∀ request, c = .event (.scaled request) → request.Permitted sizing job)
    {request : ScaleRequest} (h : s.answer now c = some request) : request.Permitted sizing job := by
  obtain ⟨t, w, hopen, hlook, -⟩ := answer_look hsound h
  obtain ⟨controller, heval, -⟩ := look_eq_ok_some hlook
  have hsized := hopen.sized hs hrequest
  cases heval with
  | scale running changes due =>
    intro vertex p hp
    obtain ⟨r, -, hr, -, helastic, rfl, -⟩ := RescaleController.getElem?_changes_eq_some_iff.1 hp
    have hderives := hsized.plans.proper vertex r hr
    have hspans := closed_derives.achievable vertex r t.controller.view.slotCount hderives helastic
    obtain ⟨v, inputs, hv, hvalid, rfl⟩ := hderives
    rw [Sizing.elastic_requirement] at helastic
    exact ⟨v, hv, helastic, Sizing.contains_of_spans hvalid hspans⟩

/-! ## The controller is driven -/

/-- A vertex that starts is tracked as a controller has to be driven: the call is one of those in
`Drives`. -/
theorem Tracked.drives (h : s.Tracked) {id : VertexId} {v : JobVertex}
    (hexecuting : s.isExecuting = true) (hnew : s.graph.get? id = none)
    (hv : s.job.get? id = some v) (inputs : List InputStatistics) :
    s.controller.Drives
      (.track id (s.sizing.requirement v inputs) (s.sizing.decideWithin v inputs (some s.view))) := by
  have hle := Sizing.min_le_decideWithin (admitted_get? h.admitted hv) inputs s.view
  refine ⟨hexecuting, h.requirement_eq_none hexecuting hnew, s.sizing.regular_requirement v inputs,
    hle, ?_⟩
  intro hfixed
  rw [Sizing.decideWithin_eq_achievable, Requirement.achievable, hfixed]
  rfl

/-! ## Histories -/

/-- A new job is `Sized`: its sources wait for what they desire. -/
theorem Sized.of_submit {config : Config} {job : JobGraph} {backend : Backend}
    (h : submit config job backend now = .ok s) : s.Sized (.ofConfig config) job := by
  have htracked := Tracked.of_submit h
  obtain ⟨order, horder, hadmitted, rfl⟩ := submit_eq_ok h
  refine ⟨htracked, rfl, rfl, .ofRequirements closed_derives _ ?_, ?_⟩
  · intro vertex r hr
    obtain ⟨v, hv, -, rfl, rfl⟩ := requirement_of_mem_sourceRequirements hr
    have hids := (JobGraph.topologicalOrder_eq_ok horder).2.1
    exact ⟨v, [], JobGraph.get?_eq_some hids hv, hadmitted v hv, rfl⟩
  · intro vertex e he
    rw [get?_empty] at he
    cases he

/-- In every state that a submitted job comes to, as long as only requests are carried out that it
has returned, be they late (`Faithful`): the parallelism of a vertex that has started lies within
the `bounds` of its job vertex; and a vertex that is not elastic runs in its first generation with
the parallelism that is decided for it, whatever its inputs and the slots are. -/
theorem parallelism_within_bounds {config : Config} {job : JobGraph} {backend : Backend}
    {start : Instant} (h : submit config job backend start = .ok s) (history : History)
    (hfaithful : s.Faithful history) (vertex : VertexId) (e : VertexExecution)
    (he : (s.run history).graph.get? vertex = some e) :
    ∃ v, job.get? vertex = some v ∧
      ((Sizing.ofConfig config).bounds v).contains e.parallelism = true ∧
      ((Sizing.ofConfig config).isElastic v = false → e.generation = 1 ∧
        ∀ inputs available,
          (Sizing.ofConfig config).decideWithin v inputs available = e.parallelism) := by
  have hall := run_induction_faithful
    (J := fun t known => t.Sound ∧ t.Sized (.ofConfig config) job ∧
      ∀ request ∈ known, request.Permitted (.ofConfig config) job)
    ⟨.of_submit h, .of_submit h, fun _ hmem => absurd hmem List.not_mem_nil⟩
    (by
      intro t known now c ⟨hsound, hsized, hpermitted⟩ hknown
      have hrequest : ∀ request, c = .event (.scaled request) →
          request.Permitted (.ofConfig config) job :=
        fun request heq => hpermitted request (hknown request heq)
      refine ⟨hsound.after now c, after_keeps hsound (fun _ hopen hu => hopen.sized hu hrequest)
        (fun _ _ hstep => hstep.sized) hsized, ?_⟩
      intro request hmem
      rcases List.mem_append.1 hmem with hold | hnew
      · exact hpermitted request hold
      · exact hsized.permitted_of_answer hsound hrequest (Option.mem_toList.1 hnew))
    history hfaithful
  obtain ⟨v, hv, hcontains, hstatic⟩ := hall.2.1.conforms vertex e he
  refine ⟨v, hv, hcontains, ?_⟩
  intro helastic
  obtain ⟨hgeneration, hsize⟩ := hstatic helastic
  refine ⟨hgeneration, ?_⟩
  intro inputs available
  rw [hsize]
  exact Sizing.decideWithin_of_not_elastic helastic inputs available

end Scheduler

/-! ## A run -/

namespace Sample

/-- A source that runs as at most two tasks. -/
def flexible : JobVertex := { id := "source" }

/-- A source that always runs as one task. -/
def fixed : JobVertex := { id := "side", parallelism := some 1 }

/-- A job with both of them. -/
def pair : JobGraph := { name := "pair", vertices := [flexible, fixed] }

end Sample

namespace Scheduler

/-- When the slots of the small run grow, the elastic `"source"` starts over, and `"side"` runs
on. -/
theorem parallelism_within_bounds_sample : ∃ s source side,
    submit Sample.config Sample.pair .willing .origin = .ok s ∧
      s.Faithful (Sample.growth ++ Sample.restart) ∧
      (s.run (Sample.growth ++ Sample.restart)).graph.get? "source" = some source ∧
      (s.run (Sample.growth ++ Sample.restart)).graph.get? "side" = some side ∧
      source.generation = 2 ∧
      ((Sizing.ofConfig Sample.config).bounds Sample.flexible).contains source.parallelism = true ∧
      side.generation = 1 ∧ side.parallelism = 1 := by
  have htest : (submit Sample.config Sample.pair .willing .origin).toOption.any (fun s =>
      decide (s.Faithful (Sample.growth ++ Sample.restart)) &&
        ((s.run (Sample.growth ++ Sample.restart)).graph.get? "source").any (·.generation = 2) &&
          ((s.run (Sample.growth ++ Sample.restart)).graph.get? "side").isSome) = true := by
    decide +kernel
  obtain ⟨s, hs, heval⟩ := exists_of_submit htest
  obtain ⟨hboth, hside⟩ := Bool.and_eq_true_iff.1 heval
  obtain ⟨hfaithful, hsource⟩ := Bool.and_eq_true_iff.1 hboth
  replace hfaithful := of_decide_eq_true hfaithful
  obtain ⟨source, hsource, hgeneration⟩ := (Option.any_eq_true _ _).1 hsource
  obtain ⟨side, hside⟩ := Option.isSome_iff_exists.1 hside
  obtain ⟨v, hv, hcontains, -⟩ := parallelism_within_bounds hs _ hfaithful "source" source hsource
  obtain ⟨w, hw, -, hstatic⟩ := parallelism_within_bounds hs _ hfaithful "side" side hside
  have hflexible : Sample.pair.get? "source" = some Sample.flexible := by decide
  have hfixed : Sample.pair.get? "side" = some Sample.fixed := by decide
  obtain rfl : Sample.flexible = v := Option.some.inj (hflexible.symm.trans hv)
  obtain rfl : Sample.fixed = w := Option.some.inj (hfixed.symm.trans hw)
  obtain ⟨hfirst, hdecided⟩ := hstatic rfl
  exact ⟨s, source, side, hs, hfaithful, hsource, hside, of_decide_eq_true hgeneration, hcontains,
    hfirst, (hdecided [] none).symm⟩

end Scheduler

end AdaptiveBatch
