import AdaptiveBatch.Proofs.Rescale.Coherence
import AdaptiveBatch.Proofs.Scheduler.Calls
import AdaptiveBatch.Proofs.Scheduler.Submission

/-! # Tracked vertices

The controller keeps a requirement for every vertex that has started and not finished. While the job
runs it keeps none for other vertices; while the job waits for its slots, there may be vertices with a
requirement that have not started, but none that has finished.

* **`Scheduler.ensures_startPlanned`** — the vertices of a plan start, and none of them is refused;
* **`Scheduler.Looked`** — the decision of a look, and what it makes of the vertices;
* **`Scheduler.Tracked`** — the invariant, kept by every call, whatever restarts are carried out. -/

namespace AdaptiveBatch.Scheduler

open Scheduling ExecutionGraph

variable {s t : Scheduler} {now : Instant} {vertex : VertexId}

/-! ## Plans that are carried out -/

/-- The sizes of the vertices after those of a plan have started. -/
structure Realized (plan : ParallelismPlan) (g g' : ExecutionGraph) : Prop where
  /-- Planned vertices are as large as planned, others as they were. -/
  unfinished_eq : ∀ vertex : VertexId, g'.unfinished? vertex = plan[vertex]?.or (g.unfinished? vertex)
  /-- Planned vertices have started, and no others. -/
  isSome_eq : ∀ vertex : VertexId,
    (g'.get? vertex).isSome = ((plan[vertex]?).isSome || (g.get? vertex).isSome)

/-- Where nothing is planned, graphs of the `SameSizes` are what `Realized` asks for. -/
theorem Realized.of_sameSizes {g g' : ExecutionGraph} (h : g.SameSizes g') : Realized ∅ g g' :=
  ⟨fun vertex => by simpa using (h vertex).2, fun vertex => by simpa using (h vertex).1⟩

/-- The state while the vertices of a plan start one by one. -/
structure Starting (plan : ParallelismPlan) (s : Scheduler) (rest : List (VertexId × Nat))
    (t : Scheduler) : Prop where
  /-- The controller does not take part. -/
  controller_eq : t.controller = s.controller
  /-- The job is the same. -/
  sameJob : s.SameJob t
  /-- What is still to come belongs to the plan. -/
  planned : ∀ entry ∈ rest, plan[entry.1]? = some entry.2
  /-- A planned vertex is still to come, or it is as large as planned. -/
  sized : ∀ (vertex : VertexId) (p : Nat), plan[vertex]? = some p →
    (vertex, p) ∈ rest ∨ t.graph.unfinished? vertex = some p
  /-- No planned vertex has finished. -/
  unfinished : ∀ (vertex : VertexId) (p : Nat), plan[vertex]? = some p →
    (t.graph.get? vertex).isSome = true → (t.graph.unfinished? vertex).isSome = true
  /-- The other vertices are as they were. -/
  others : ∀ vertex : VertexId, plan[vertex]? = none → t.graph.get? vertex = s.graph.get? vertex

/-- A planned vertex, the first `entry`, starts, or it already is as large as planned; the `rest` is
still to come. -/
theorem Starting.step {plan : ParallelismPlan} {entry : VertexId × Nat}
    {rest : List (VertexId × Nat)} (h : Starting plan s (entry :: rest) t) (hpos : entry.2 ≠ 0) :
    (startPlanned now entry).Ensures t (fun _ => Starting plan s rest) fun _ => False := by
  obtain ⟨id, parallelism⟩ := entry
  have hplan : plan[id]? = some parallelism := h.planned (id, parallelism) List.mem_cons_self
  unfold startPlanned
  rw [ensures_bind, ensures_get]
  split
  · apply ensures_restart (fun hzero => absurd hzero hpos)
    intro _
    have hsize (other : VertexId) : (t.restarted id parallelism now).graph.unfinished? other =
        if id = other then some parallelism else t.graph.unfinished? other :=
      unfinished?_regenerate hpos other
    have hget (other : VertexId) : (t.restarted id parallelism now).graph.get? other =
        if id = other then _ else t.graph.get? other := get?_regenerate _ other
    refine ⟨h.controller_eq, h.sameJob, fun e he => h.planned e (List.mem_cons_of_mem _ he),
      ?_, ?_, ?_⟩
    · -- The restarted vertex is as large as planned; for the others the list is shorter by one.
      intro other p hp
      rw [hsize]
      split
      · next heq =>
        subst heq
        exact Or.inr (hplan.symm.trans hp)
      · next hne =>
        apply (h.sized other p hp).imp_left
        intro hmem
        rcases List.mem_cons.1 hmem with heq | hmem
        · exact absurd (congrArg Prod.fst heq).symm hne
        · exact hmem
    · intro other p hp hsome
      rw [hsize]
      split
      · rfl
      · next hne =>
        rw [hget, if_neg hne] at hsome
        exact h.unfinished other p hp hsome
    · intro other hnone
      have hne : id ≠ other := by
        rintro rfl
        rw [hplan] at hnone
        cases hnone
      rw [hget, if_neg hne]
      exact h.others other hnone
  · next hneeds =>
    refine ⟨h.controller_eq, h.sameJob, fun e he => h.planned e (List.mem_cons_of_mem _ he),
      ?_, h.unfinished, h.others⟩
    intro other p hp
    rcases h.sized other p hp with hmem | hsize
    · rcases List.mem_cons.1 hmem with heq | hmem
      · cases heq
        refine Or.inr ?_
        -- It runs already, since it needs no new generation.
        unfold needsGeneration at hneeds
        cases hv : t.graph.get? id with
        | none => rw [hv] at hneeds; exact absurd rfl hneeds
        | some v =>
          have hopen := h.unfinished id parallelism hplan (by rw [hv]; rfl)
          rw [isSome_unfinished?, hv] at hopen
          have hunfinished : v.isFinished = false := by simpa using hopen
          rw [hv] at hneeds
          have hsame : v.parallelism = parallelism := by simpa [hunfinished] using hneeds
          rw [unfinished?_of_get? hv hunfinished, hsame]
      · exact Or.inl hmem
    · exact Or.inr hsize

/-- The vertices of a plan start one by one, and none of them is refused; then the plan is
`Realized`. -/
theorem ensures_startPlanned {plan : ParallelismPlan}
    (hpos : ∀ (vertex : VertexId) (p : Nat), plan[vertex]? = some p → p ≠ 0)
    (hopen : ∀ (vertex : VertexId) (p : Nat), plan[vertex]? = some p →
      (s.graph.get? vertex).isSome = true → (s.graph.unfinished? vertex).isSome = true) :
    (plan.toList.forM (startPlanned now)).Ensures s
      (fun _ t => t.controller = s.controller ∧ s.SameJob t ∧ Realized plan s.graph t.graph)
      fun _ => False := by
  have hstart : Starting plan s plan.toList s :=
    ⟨rfl, SameJob.refl s, fun e he => Std.ExtTreeMap.mem_toList_iff_getElem?_eq_some.1 he,
      fun vertex p hp => Or.inl (Std.ExtTreeMap.mem_toList_iff_getElem?_eq_some.2 hp), hopen,
      fun _ _ => rfl⟩
  refine (Ensures.forM (Starting plan s) ?_ _ _ hstart).mono ?_ fun _ => id
  · intro entry rest t ht
    exact ht.step (hpos entry.1 entry.2 (ht.planned entry List.mem_cons_self))
  · -- When the list is empty, every planned vertex is as large as planned.
    intro _ t ht
    have hsized (vertex : VertexId) (p : Nat) (hp : plan[vertex]? = some p) :
        t.graph.unfinished? vertex = some p :=
      (ht.sized vertex p hp).resolve_left List.not_mem_nil
    refine ⟨ht.controller_eq, ht.sameJob, ?_, ?_⟩
    · intro vertex
      cases hp : plan[vertex]? with
      | some p => exact hsized vertex p hp
      | none =>
        unfold unfinished?
        rw [ht.others vertex hp]
        rfl
    · intro vertex
      cases hp : plan[vertex]? with
      | some p => exact isSome_get?_of_unfinished? (by rw [hsized vertex p hp]; rfl)
      | none => rw [ht.others vertex hp]; rfl

/-! ## The invariant -/

/-- The settings admit every vertex of the job. -/
def Admitted (s : Scheduler) : Prop :=
  ∀ v ∈ s.job.vertices, s.sizing.validateVertex v = .ok ()

/-- The settings admit the vertices in every state of the same job. -/
theorem Admitted.sameJob (h : s.Admitted) (hjob : s.SameJob t) : t.Admitted := by
  intro v hv
  rw [hjob.2.1] at hv
  unfold sizing
  rw [hjob.1]
  exact h v hv

/-- The controller and the execution speak about the same vertices. -/
structure Tracked (s : Scheduler) : Prop where
  /-- The vertices are admitted. -/
  admitted : s.Admitted
  /-- The controller is coherent. -/
  coherent : s.controller.Coherent
  /-- Of the vertices that have started, those with a requirement are the unfinished ones. -/
  unfinished_iff : ∀ vertex : VertexId, (s.graph.get? vertex).isSome = true →
    ((s.graph.unfinished? vertex).isSome = true ↔
      (s.controller.requirements[vertex]?).isSome = true)
  /-- While the job runs, the vertices with a requirement have started. -/
  started : s.isExecuting = true → ∀ vertex : VertexId,
    (s.controller.requirements[vertex]?).isSome = true → (s.graph.get? vertex).isSome = true

/-- A job runs iff its controller says so. -/
theorem isExecuting_eq (s : Scheduler) : s.isExecuting = s.controller.isExecuting := rfl

/-- Only the controller and the sizes of the vertices matter to `Tracked`. -/
theorem Tracked.of_sameSizes (h : s.Tracked) (hjob : s.SameJob t)
    (hcontroller : t.controller = s.controller) (hsizes : s.graph.SameSizes t.graph) :
    t.Tracked := by
  refine ⟨h.admitted.sameJob hjob, hcontroller ▸ h.coherent, ?_, ?_⟩
  · intro vertex hsome
    rw [(hsizes vertex).1] at hsome
    rw [(hsizes vertex).2, hcontroller]
    exact h.unfinished_iff vertex hsome
  · intro hexecuting vertex hsome
    rw [isExecuting_eq, hcontroller] at hexecuting
    rw [hcontroller] at hsome
    rw [(hsizes vertex).1]
    exact h.started hexecuting vertex hsome

/-- What a table `m` says about a vertex after vertices were entered: its last entry, or what it
said before. -/
theorem getElem?_enterAll (f : JobVertex → Requirement) (l : List JobVertex)
    (m : Std.ExtTreeMap VertexId Requirement) (vertex : VertexId) :
    (∃ v ∈ l, v.id = vertex ∧ (l.foldl (fun m v => m.insert v.id (f v)) m)[vertex]? = some (f v)) ∨
      (∀ v ∈ l, v.id ≠ vertex) ∧ (l.foldl (fun m v => m.insert v.id (f v)) m)[vertex]? = m[vertex]? := by
  induction l generalizing m with
  | nil => exact Or.inr ⟨List.forall_mem_nil _, rfl⟩
  | cons w rest ih =>
    rcases ih (m.insert w.id (f w)) with ⟨v, hv, hid, hvalue⟩ | ⟨hnone, hvalue⟩
    · exact Or.inl ⟨v, List.mem_cons_of_mem _ hv, hid, hvalue⟩
    · -- No later entry is about the vertex, so this one counts.
      rw [ParallelismPlan.getElem?_insert] at hvalue
      by_cases hid : w.id = vertex
      · rw [if_pos hid] at hvalue
        exact Or.inl ⟨w, List.mem_cons_self, hid, hvalue⟩
      · rw [if_neg hid] at hvalue
        exact Or.inr ⟨List.forall_mem_cons.2 ⟨hid, hnone⟩, hvalue⟩

/-- A new job keeps requirements of its sources, those of `sizing.requirement` without inputs. -/
theorem requirement_of_mem_sourceRequirements {sizing : Sizing} {job : JobGraph} {r : Requirement}
    (h : (sourceRequirements sizing job)[vertex]? = some r) :
    ∃ v ∈ job.vertices, job.isSource v.id = true ∧ v.id = vertex ∧ r = sizing.requirement v [] := by
  unfold sourceRequirements at h
  rcases getElem?_enterAll (sizing.requirement · []) _ ∅ vertex with
    ⟨v, hv, hid, hvalue⟩ | ⟨-, hvalue⟩
  · obtain ⟨hmem, hsource⟩ := List.mem_filter.1 hv
    exact ⟨v, hmem, hsource, hid, Option.some.inj (h.symm.trans hvalue)⟩
  · rw [hvalue] at h
    simp at h

/-- A new job keeps a requirement of every source `v`. -/
theorem exists_sourceRequirement {sizing : Sizing} {job : JobGraph} {v : JobVertex}
    (hv : v ∈ job.vertices) (hsource : job.isSource v.id = true) :
    ∃ r, (sourceRequirements sizing job)[v.id]? = some r := by
  rcases getElem?_enterAll (sizing.requirement · []) _ ∅ v.id with
    ⟨w, -, -, hvalue⟩ | ⟨hnone, -⟩
  · exact ⟨_, hvalue⟩
  · exact absurd rfl (hnone v (List.mem_filter.2 ⟨hv, hsource⟩))

/-- A source requires what it would be given alone, `sizing.requirement v []`. -/
theorem sourceRequirements_of_mem {sizing : Sizing} {job : JobGraph} {v : JobVertex}
    (hids : (job.vertices.map (·.id)).Nodup) (hv : v ∈ job.vertices)
    (hsource : job.isSource v.id = true) :
    (sourceRequirements sizing job)[v.id]? = some (sizing.requirement v []) := by
  have hmem : v ∈ job.vertices.filter fun v => job.isSource v.id := List.mem_filter.2 ⟨hv, hsource⟩
  rcases getElem?_enterAll (sizing.requirement · []) _ ∅ v.id with
    ⟨w, hw, hid, hvalue⟩ | ⟨hnone, -⟩
  · obtain rfl : w = v := List.inj_on_of_nodup_map hids (List.mem_of_mem_filter hw) hv hid
    exact hvalue
  · exact absurd rfl (hnone v hmem)

/-- In a new job nothing has started, and its controller is coherent, so it is `Tracked`. -/
theorem Tracked.of_submit {config : Config} {job : JobGraph} {backend : Backend}
    (h : submit config job backend now = .ok s) : s.Tracked := by
  obtain ⟨order, -, hadmitted, rfl⟩ := submit_eq_ok h
  refine ⟨hadmitted, .ofRequirements _ ?_, ?_,
    Bool.noConfusion⟩
  · intro vertex r hr
    obtain ⟨v, hv, -, -, rfl⟩ := requirement_of_mem_sourceRequirements hr
    exact Sizing.requirement_valid (hadmitted v hv) []
  · intro vertex hsome
    simp at hsome

/-! ## Looks at the resources -/

/-- A look has decided something; the vertices that it starts have started, the others are as they
were. -/
def Looked (now : Instant) (s t : Scheduler) : Prop :=
  ∃ action, s.controller.Evaluated now action t.controller ∧ s.SameJob t ∧
    Realized action.plan s.graph t.graph

/-- The vertices of the `plan` that a look starts. None of them is refused, and the plan is
`Realized`. -/
theorem ensures_start {plan : ParallelismPlan} {reduced : Bool} {c : RescaleController}
    (h : s.Tracked) (heval : s.controller.Evaluated now (.start plan reduced) c) :
    (plan.toList.forM (startPlanned now)).Ensures { s with controller := c }
      (fun _ t => t.controller = c ∧ s.SameJob t ∧ Realized plan s.graph t.graph)
      fun _ => False := by
  have hplanned {vertex : VertexId} {p : Nat} (hp : plan[vertex]? = some p) :
      ∃ r, s.controller.requirements[vertex]? = some r ∧ r.Accepts p :=
    h.coherent.exists_requirement heval hp
  apply ensures_startPlanned
  · intro vertex p hp
    obtain ⟨r, hr, haccepts⟩ := hplanned hp
    exact (h.coherent.valid vertex r hr).ne_zero_of_accepts haccepts
  · intro vertex p hp hsome
    obtain ⟨r, hr, -⟩ := hplanned hp
    exact (h.unfinished_iff vertex hsome).2 (by rw [hr]; rfl)

/-- However a look ends, the state is one that `Looked` leads to. -/
theorem ensures_look (h : s.Tracked) (now : Instant) :
    (look now).Ensures s (fun _ => Looked now s) (Looked now s) := by
  have hsame := Realized.of_sameSizes (SameSizes.refl s.graph)
  unfold look
  rw [ensures_bind, ensures_onController]
  refine ⟨?_, fun _ _ => ⟨.idle, .idle, SameJob.refl s, hsame⟩⟩
  intro action c hc
  have heval := RescaleController.evaluate_eq_ok hc
  cases action with
  | idle => exact ⟨.idle, heval, SameJob.refl s, hsame⟩
  | scale request => exact ⟨.scale request, heval, SameJob.refl s, hsame⟩
  | insufficient available required =>
    exact ⟨.insufficient available required, heval, ⟨rfl, rfl, rfl⟩,
      Realized.of_sameSizes (sameSizes_cancelEach _)⟩
  | start plan reduced =>
    show ((plan.toList.forM (startPlanned now)) >>= fun _ => _).Ensures _ _ _
    rw [ensures_bind]
    refine (ensures_start h heval).mono ?_ fun _ => False.elim
    intro _ t ht
    obtain ⟨rfl, hjob, hrealized⟩ := ht
    rw [ensures_bind, ensures_modify, ensures_pure]
    exact ⟨.start plan reduced, heval, hjob, hrealized⟩

/-- A look starts the vertices of its plan and tracks no others, so it leaves a job `Tracked`. -/
theorem Tracked.looked (h : s.Tracked) (hlook : Looked now s t) : t.Tracked := by
  obtain ⟨action, heval, hjob, hrealized⟩ := hlook
  have hcoherent := h.coherent.evaluated heval
  have hrequirements := heval.frame.2.2
  refine ⟨h.admitted.sameJob hjob, hcoherent, ?_, ?_⟩
  · intro vertex hsome
    rw [hrealized.isSome_eq] at hsome
    rw [hrealized.unfinished_eq, hrequirements]
    cases hp : action.plan[vertex]? with
    -- A vertex that the look does not start is as before; one that it starts has a requirement.
    | none =>
      rw [hp] at hsome
      exact h.unfinished_iff vertex hsome
    | some p =>
      obtain ⟨r, hr, -⟩ := h.coherent.exists_requirement heval hp
      rw [hr]
      exact Iff.rfl
  · intro hexecuting vertex hsome
    rw [hrequirements] at hsome
    rw [hrealized.isSome_eq]
    rcases heval.starts_or_not with ⟨-, -, haim⟩ | ⟨-, hstay⟩
    · have hplanned := (hcoherent.aimed _ haim).isSome_eq vertex
      rw [hplanned, hrequirements, hsome]
      rfl
    · rw [h.started (hstay hexecuting).1 vertex hsome, Bool.or_true]

/-- A look leaves a job `Tracked`, however it ends. -/
theorem Tracked.look (h : s.Tracked) : ((Scheduler.look now).final s).Tracked :=
  h.looked (ensures_final.1 (ensures_look h now))

/-! ## Steps and openings -/

/-- A vertex of an admitted job that is found by its name is accepted by `validateVertex`. -/
theorem admitted_get? {v : JobVertex} {id : VertexId} (h : s.Admitted) (hv : s.job.get? id = some v) :
    s.sizing.validateVertex v = .ok () :=
  h v (List.mem_of_find?_eq_some hv)

/-- A vertex that has not started has no requirement while the job runs, `s.isExecuting = true`. -/
theorem Tracked.requirement_eq_none (h : s.Tracked) (hexecuting : s.isExecuting = true)
    (hnew : s.graph.get? vertex = none) : s.controller.requirements[vertex]? = none := by
  cases hr : s.controller.requirements[vertex]? with
  | none => rfl
  | some r =>
    have hsome := h.started hexecuting vertex (by rw [hr]; rfl)
    rw [hnew] at hsome
    cases hsome

/-- A vertex of the job that has not started may start while the job runs, and is tracked then. -/
theorem Tracked.started_new {v : JobVertex} {inputs : List InputStatistics} {id : VertexId}
    (h : s.Tracked) (hexecuting : s.isExecuting = true) (hnew : s.graph.get? id = none)
    (hv : s.job.get? id = some v) (hpos : s.sizing.decideWithin v inputs (some s.view) ≠ 0) :
    (s.started v inputs id now).Tracked := by
  have hvalid := Sizing.requirement_valid (admitted_get? h.admitted hv) inputs
  have hle := Sizing.min_le_decideWithin (admitted_get? h.admitted hv) inputs s.view
  refine ⟨h.admitted, h.coherent.track hexecuting (h.requirement_eq_none hexecuting hnew) hvalid hle,
    ?_, ?_⟩
  · intro vertex hsome
    show ((s.graph.regenerate id _ now).unfinished? vertex).isSome = true ↔
      ((s.controller.requirements.insert id _)[vertex]?).isSome = true
    have hsome' : ((s.graph.regenerate id _ now).get? vertex).isSome = true := hsome
    rw [isSome_get?_regenerate] at hsome'
    rw [unfinished?_regenerate hpos, ParallelismPlan.getElem?_insert]
    split
    · exact Iff.rfl
    · next hne =>
      rw [if_neg hne] at hsome'
      exact h.unfinished_iff vertex hsome'
  · intro _ vertex hsome
    have hsome' : ((s.controller.requirements.insert id _)[vertex]?).isSome = true := hsome
    show ((s.graph.regenerate id _ now).get? vertex).isSome = true
    rw [ParallelismPlan.getElem?_insert] at hsome'
    rw [isSome_get?_regenerate]
    split
    · rfl
    · next hne =>
      rw [if_neg hne] at hsome'
      exact h.started hexecuting vertex hsome'

/-- A step of a call leaves a job `Tracked`. -/
theorem Step.tracked (h : Step now s t) (hs : s.Tracked) : t.Tracked := by
  cases h with
  | place => exact hs.of_sameSizes ⟨rfl, rfl, rfl⟩ rfl (sameSizes_push _)
  | start executing live mem_order new ready vertex_eq inputs_eq pos =>
    exact hs.started_new executing new vertex_eq pos
  | look => exact hs.look
  | giveUp e => exact hs.of_sameSizes ⟨rfl, rfl, rfl⟩ rfl (sameSizes_cancelEach _)
  | react | count => exact hs.of_sameSizes ⟨rfl, rfl, rfl⟩ rfl (SameSizes.refl _)

/-- A new generation of an unfinished vertex, with `parallelism ≠ 0`, leaves a job `Tracked`. -/
theorem Tracked.restarted (h : s.Tracked) {parallelism : Nat} (hpos : parallelism ≠ 0)
    (hopen : (s.graph.unfinished? vertex).isSome = true) :
    (s.restarted vertex parallelism now).Tracked := by
  have hvertex := isSome_get?_of_unfinished? hopen
  have hget (other : VertexId) : ((s.restarted vertex parallelism now).graph.get? other).isSome =
      (s.graph.get? other).isSome := by
    show ((s.graph.regenerate vertex parallelism now).get? other).isSome = _
    rw [isSome_get?_regenerate]
    split
    · next heq => rw [← heq, hvertex]
    · rfl
  refine ⟨h.admitted, h.coherent, ?_, ?_⟩
  · intro other hsome
    rw [hget] at hsome
    show ((s.graph.regenerate vertex parallelism now).unfinished? other).isSome = true ↔
      (s.controller.requirements[other]?).isSome = true
    rw [unfinished?_regenerate hpos, ← h.unfinished_iff other hsome]
    split
    · next heq => rw [← heq, hopen]; exact Iff.rfl
    · exact Iff.rfl
  · intro hexecuting other hsome
    rw [hget]
    exact h.started hexecuting other hsome

/-- A win untracks the vertex that it finishes, and leaves a job `Tracked`. -/
theorem Tracked.won {id : AttemptId} {inputBytes outputBytes : Option Nat} (h : s.Tracked)
    (hid : s.graph.Awaits id) : (s.won id inputBytes outputBytes now).Tracked := by
  have hsize := unfinished?_win hid inputBytes outputBytes now
  have hget (other : VertexId) : ((s.graph.win id inputBytes outputBytes now).get? other).isSome =
      (s.graph.get? other).isSome := isSome_get?_modifyTask other
  unfold Scheduler.won
  split
  · next hfinished =>
    refine ⟨h.admitted, h.coherent.untrack id.vertex, ?_, ?_⟩
    · intro other hsome
      show ((s.graph.win id inputBytes outputBytes now).unfinished? other).isSome = true ↔
        ((s.controller.requirements.erase id.vertex)[other]?).isSome = true
      rw [hsize, ParallelismPlan.getElem?_erase]
      -- The vertex is finished and loses its requirement at once.
      by_cases heq : other = id.vertex
      · rw [if_pos ⟨heq, hfinished⟩, if_pos heq.symm]
        simp
      · rw [if_neg fun hboth => heq hboth.1, if_neg (Ne.symm heq)]
        exact h.unfinished_iff other ((hget other).symm.trans hsome)
    · intro hexecuting other hsome
      have hexecuting' : s.isExecuting = true :=
        RescaleController.isExecuting_untrack.symm.trans hexecuting
      have hsome' : ((s.controller.requirements.erase id.vertex)[other]?).isSome = true := hsome
      rw [ParallelismPlan.getElem?_erase] at hsome'
      split at hsome'
      · cases hsome'
      · exact (hget other).trans (h.started hexecuting' other hsome')
  · next hopen =>
    refine h.of_sameSizes ⟨rfl, rfl, rfl⟩ rfl fun other => ⟨hget other, ?_⟩
    exact (hsize other).trans (if_neg fun hboth => hopen hboth.2)

/-- What comes before the look of a call leaves a job `Tracked`. -/
theorem Opening.tracked {c : Call} (h : Opening now s c t) (hs : s.Tracked) : t.Tracked := by
  cases h with
  | nothing => exact hs
  | running | progress | failed =>
    exact hs.of_sameSizes ⟨rfl, rfl, rfl⟩ rfl sameSizes_modifyAttempt
  | finished awaits => exact hs.won awaits
  | resources => exact ⟨hs.admitted, hs.coherent.withView _, hs.unfinished_iff, hs.started⟩
  | scaled =>
    apply restartAll_keeps hs fun _ _ _ hpos hopen ht => ht.restarted hpos hopen
    intro t ht
    refine ⟨ht.admitted, ht.coherent.awaitRestart now, ?_, ?_⟩
    · intro vertex hsome
      show _ ↔ (((t.controller.awaitRestart now).requirements)[vertex]?).isSome = true
      rw [RescaleController.requirements_awaitRestart]
      exact ht.unfinished_iff vertex hsome
    · intro hexecuting vertex hsome
      have hsome' : (((t.controller.awaitRestart now).requirements)[vertex]?).isSome = true := hsome
      rw [RescaleController.requirements_awaitRestart] at hsome'
      exact ht.started (RescaleController.isExecuting_of_awaitRestart hexecuting).1 vertex hsome'
  | tick => exact hs.of_sameSizes ⟨rfl, rfl, rfl⟩ rfl (SameSizes.refl _)

/-- Every call leaves a job `Tracked`. -/
theorem Tracked.after (h : s.Tracked) (hs : s.Sound) (now : Instant) (c : Call) :
    (s.after now c).Tracked :=
  after_keeps hs (fun _ hopen => hopen.tracked) (fun _ _ hstep => hstep.tracked) h

/-- Both invariants, `Sound` and `Tracked`, hold in every run. -/
theorem sound_and_tracked_run (hs : s.Sound) (h : s.Tracked) (history : History) :
    (s.run history).Sound ∧ (s.run history).Tracked :=
  run_induction (J := fun t => t.Sound ∧ t.Tracked) ⟨hs, h⟩
    (fun _ now c ht => ⟨ht.1.after now c, ht.2.after ht.1 now c⟩) history

end AdaptiveBatch.Scheduler
