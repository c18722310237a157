import AdaptiveBatch.Proofs.Scheduler.Tracking

/-! # The plan of the controller and the execution agree

While the job runs, the plan of the controller lists the unfinished vertices with their sizes. The
agreement is broken by a restart and repaired at the next start: in between the job waits for its
slots. It needs that the restarts that are carried out were asked for, since a request that gives a
vertex no tasks would be refused half-way.

* **`Scheduler.Agreed`** — the agreement;
* **`Scheduler.isExecuting_restartAll`** — a restart that was asked for is carried out to its end;
* **`Scheduler.positive_of_answer`** — a restart is asked for with tasks for every vertex;
* **`Scheduler.current_eq_unfinished`** — the agreement in every history. -/

namespace AdaptiveBatch

/-- The request gives every vertex a task. -/
def ScaleRequest.Positive (request : ScaleRequest) : Prop :=
  ∀ (vertex : VertexId) (p : Nat), request.plan[vertex]? = some p → p ≠ 0

namespace Scheduler

open Scheduling ExecutionGraph

variable {s t : Scheduler} {now : Instant} {vertex : VertexId} {request : ScaleRequest}

/-- While the job runs, the plan of the controller gives the sizes of the unfinished vertices. -/
def Agreed (s : Scheduler) : Prop :=
  s.isExecuting = true → ∀ vertex : VertexId,
    s.controller.current[vertex]? = s.graph.unfinished? vertex

/-- What matters for the agreement are the plan of the controller and the sizes of the unfinished
vertices. -/
theorem Agreed.of_sameSizes (h : s.Agreed) (hcontroller : t.controller = s.controller)
    (hsizes : s.graph.SameSizes t.graph) : t.Agreed := by
  intro hexecuting vertex
  rw [isExecuting_eq, hcontroller] at hexecuting
  rw [hcontroller, (hsizes vertex).2]
  exact h hexecuting vertex

/-! ## Steps -/

/-- A look that starts the job makes the plan and the sizes agree; any other one leaves both, and so
`Agreed`. -/
theorem Agreed.looked (h : s.Agreed) (hs : s.Tracked) (hlook : Looked now s t) : t.Agreed := by
  obtain ⟨action, heval, -, hrealized⟩ := hlook
  intro hexecuting vertex
  rw [hrealized.unfinished_eq]
  rcases heval.starts_or_not with ⟨-, hcurrent, haim⟩ | ⟨hempty, hstay⟩
  · -- The job starts with the plan that its vertices now have.
    rw [hcurrent]
    cases hp : action.plan[vertex]? with
    | some p => rfl
    | none =>
      -- A vertex outside the plan has no requirement, so it is not unfinished.
      have hplanned := ((hs.coherent.evaluated heval).aimed _ haim).isSome_eq vertex
      rw [hp, heval.frame.2.2] at hplanned
      cases hu : s.graph.unfinished? vertex with
      | none => rfl
      | some p =>
        have hsome : (s.graph.unfinished? vertex).isSome = true := by rw [hu]; rfl
        have hrequired := (hs.unfinished_iff vertex (isSome_get?_of_unfinished? hsome)).1 hsome
        rw [← hplanned] at hrequired
        cases hrequired
  · -- Nothing starts, so the job was running before.
    obtain ⟨hold, hcurrent⟩ := hstay hexecuting
    rw [hcurrent, h hold vertex, hempty]
    simp

/-- A look keeps the agreement, whether or not it returns. -/
theorem Agreed.look (h : s.Agreed) (hs : s.Tracked) : ((Scheduler.look now).final s).Agreed :=
  h.looked hs (ensures_final.1 (ensures_look hs now))

/-- A step keeps the agreement: a vertex that starts is tracked with the parallelism of its
generation. -/
theorem Step.agreed (hstep : Step now s t) (hs : s.Tracked) (h : s.Agreed) : t.Agreed := by
  cases hstep with
  | place => exact h.of_sameSizes rfl (sameSizes_push _)
  | @start v inputs id executing live mem_order new ready vertex_eq inputs_eq pos =>
    intro _ vertex
    show (s.controller.current.insert id _)[vertex]? =
      (s.graph.regenerate id _ now).unfinished? vertex
    rw [ParallelismPlan.getElem?_insert, unfinished?_regenerate pos]
    split
    · rfl
    · exact h executing vertex
  | look => exact h.look hs
  | giveUp e => exact h.of_sameSizes rfl (sameSizes_cancelEach _)
  | react | count => exact h.of_sameSizes rfl (SameSizes.refl _)

/-! ## Openings -/

/-- A restart that gives every vertex a task, `request.Positive`, is carried out to its end; then
the job waits. -/
theorem isExecuting_restartAll (hpos : request.Positive) (hrescaling : s.status = .rescaling) :
    ((restartAll request now).final s).isExecuting = false := by
  obtain ⟨pending, hphase⟩ := phase_of_rescaling hrescaling
  refine (ensures_final (P := fun t => t.isExecuting = false)).1 ?_
  unfold restartAll
  rw [ensures_bind]
  have hrestarts : ∀ entry ∈ request.plan.toList, entry.2 ≠ 0 := fun entry hentry =>
    hpos entry.1 entry.2 (Std.ExtTreeMap.mem_toList_iff_getElem?_eq_some.1 hentry)
  refine (Ensures.forM (E := fun _ => False)
    (fun rest t => (∀ entry ∈ rest, entry.2 ≠ 0) ∧ t.controller = s.controller)
    ?_ _ _ ⟨hrestarts, rfl⟩).mono ?_ fun _ => False.elim
  · intro entry rest t ht
    have hrest : ∀ entry ∈ rest, entry.2 ≠ 0 := fun e he => ht.1 e (List.mem_cons_of_mem _ he)
    unfold restartPlanned
    rw [ensures_bind, ensures_get]
    split
    · exact ensures_restart (fun hzero => absurd hzero (ht.1 entry List.mem_cons_self))
        fun _ => ⟨hrest, ht.2⟩
    · exact ⟨hrest, ht.2⟩
  · intro _ t ht
    rw [ensures_modify, isExecuting_eq]
    show (t.controller.awaitRestart now).isExecuting = false
    rw [ht.2, RescaleController.awaitRestart, hphase]
    rfl

/-- A win keeps the agreement: the vertex it finishes, if it does, is untracked. -/
theorem Agreed.won {id : AttemptId} {inputBytes outputBytes : Option Nat} (h : s.Agreed)
    (hid : s.graph.Awaits id) : (s.won id inputBytes outputBytes now).Agreed := by
  have hsize := unfinished?_win hid inputBytes outputBytes now
  unfold Scheduler.won
  split
  · next hfinished =>
    intro hexecuting vertex
    have hold : s.isExecuting = true :=
      RescaleController.isExecuting_untrack.symm.trans hexecuting
    show (s.controller.current.erase id.vertex)[vertex]? =
      (s.graph.win id inputBytes outputBytes now).unfinished? vertex
    rw [hsize, ParallelismPlan.getElem?_erase]
    by_cases heq : vertex = id.vertex
    · rw [if_pos heq.symm, if_pos ⟨heq, hfinished⟩]
    · rw [if_neg (Ne.symm heq), if_neg fun hboth => heq hboth.1]
      exact h hold vertex
  · next hopen =>
    refine h.of_sameSizes rfl fun vertex => ⟨isSome_get?_modifyTask vertex, ?_⟩
    exact (hsize vertex).trans (if_neg fun hboth => hopen hboth.2)

/-- What comes before the look of a call keeps the agreement, if a request that it carries out gives
every vertex a task. -/
theorem Opening.agreed {c : Call} (hopen : Opening now s c t) (h : s.Agreed)
    (hpos : ∀ request, c = .event (.scaled request) → request.Positive) : t.Agreed := by
  cases hopen with
  | nothing => exact h
  | running | progress | failed => exact h.of_sameSizes rfl sameSizes_modifyAttempt
  | finished awaits => exact h.won awaits
  | resources => exact h
  | @scaled request rescaling =>
    -- After a restart the job waits, and there is nothing to agree about.
    intro hexecuting
    rw [isExecuting_restartAll (hpos request rfl) rescaling] at hexecuting
    cases hexecuting
  | tick => exact h.of_sameSizes rfl (SameSizes.refl _)

/-! ## Histories -/

/-- A restart is asked for with tasks for every vertex: the request is `Positive`. -/
theorem positive_of_answer (hs : s.Sound) (h : s.Tracked) {c : Call}
    (hanswer : s.answer now c = some request) : request.Positive := by
  obtain ⟨t, w, hopen, hlook, -⟩ := answer_look hs hanswer
  obtain ⟨controller, heval, -⟩ := look_eq_ok_some hlook
  have hcoherent := (hopen.tracked h).coherent
  cases heval with
  | scale running changes due =>
    intro vertex p hp
    obtain ⟨r, hr, haccepts⟩ := hcoherent.exists_accepts_changes hp
    exact (hcoherent.valid vertex r hr).ne_zero_of_accepts haccepts

/-- What holds after a faithful history: the invariants, and a task for every vertex in every request
that was returned. -/
structure Consistent (s : Scheduler) (known : List ScaleRequest) : Prop where
  /-- The invariant behind the steps. -/
  sound : s.Sound
  /-- The controller and the execution speak about the same vertices. -/
  tracked : s.Tracked
  /-- While the job runs, they agree about the sizes. -/
  agreed : s.Agreed
  /-- Every request gives every vertex a task. -/
  positive : ∀ request ∈ known, request.Positive

/-- A call that carries out only requests that are `known` keeps `Consistent`, and what it returns
is known from then on. -/
theorem Consistent.after {known : List ScaleRequest} (h : s.Consistent known) {c : Call}
    (hknown : ∀ request, c = .event (.scaled request) → request ∈ known) :
    (s.after now c).Consistent (known ++ (s.answer now c).toList) := by
  obtain ⟨t, hopen, hsteps⟩ := after_steps h.sound now c
  have hstart := hopen.agreed h.agreed fun request heq => h.positive request (hknown request heq)
  have hkeep := hsteps.keeps (J := fun u => u.Tracked ∧ u.Agreed)
    (fun _ _ hstep hu => ⟨hstep.tracked hu.1, hstep.agreed hu.1 hu.2⟩)
    ⟨hopen.tracked h.tracked, hstart⟩
  refine ⟨h.sound.after now c, hkeep.1, hkeep.2, ?_⟩
  intro request hmem
  rcases List.mem_append.1 hmem with hold | hnew
  · exact h.positive request hold
  · exact positive_of_answer h.sound h.tracked (Option.mem_toList.1 hnew)

/-- A new job is `Consistent`, and no request is known. -/
theorem Consistent.of_submit {config : Config} {job : JobGraph} {backend : Backend}
    {start : Instant} (h : submit config job backend start = .ok s) : s.Consistent [] := by
  have hwaiting : s.isExecuting = false := by
    obtain ⟨order, -, -, rfl⟩ := submit_eq_ok h
    rfl
  refine ⟨.of_submit h, .of_submit h, ?_, List.forall_mem_nil _⟩
  intro hexecuting
  rw [hwaiting] at hexecuting
  cases hexecuting

/-- After a faithful history a job is `Consistent`, with the requests it has returned. -/
theorem consistent_run {config : Config} {job : JobGraph} {backend : Backend} {start : Instant}
    (h : submit config job backend start = .ok s) (history : History)
    (hfaithful : s.Faithful history) : (s.run history).Consistent (s.returned history) :=
  run_induction_faithful (J := Consistent) (.of_submit h) (fun _ _ _ _ ht hknown => ht.after hknown)
    history hfaithful

/-- After any history of a submitted job in which only returned requests are carried out
(`Faithful`) — in any order, late or repeatedly — if the job runs, be it with a restart asked for,
then the plan of the controller (`controller.current`) lists exactly the unfinished vertices, each
with its parallelism. -/
theorem current_eq_unfinished {config : Config} {job : JobGraph} {backend : Backend}
    {start : Instant} (h : submit config job backend start = .ok s) (history : History)
    (hfaithful : s.Faithful history) (hexecuting : (s.run history).isExecuting = true)
    (vertex : VertexId) : (s.run history).controller.current[vertex]? =
      (((s.run history).graph.get? vertex).filter (!·.isFinished)).map (·.parallelism) :=
  (consistent_run h history hfaithful).agreed hexecuting vertex

/-- After the restart of the small run the plan has two tasks for `"source"`, as has its
execution. -/
theorem current_eq_unfinished_sample : ∃ s,
    submit Sample.config Sample.job { accepts := Sample.accepts } .origin = .ok s ∧
      s.Faithful (Sample.growth ++ Sample.restart) ∧
      (s.run (Sample.growth ++ Sample.restart)).isExecuting = true ∧
      (((s.run (Sample.growth ++ Sample.restart)).graph.get? "source").filter
        (!·.isFinished)).map (·.parallelism) = some 2 := by
  obtain ⟨s, hs, heval⟩ := Sample.exists_scheduler
    (P := fun s => decide (s.Faithful (Sample.growth ++ Sample.restart) ∧
      (s.run (Sample.growth ++ Sample.restart)).isExecuting = true ∧
      (s.run (Sample.growth ++ Sample.restart)).controller.current["source"]? = some 2))
    (by decide +kernel)
  obtain ⟨hfaithful, hexecuting, hcurrent⟩ := of_decide_eq_true heval
  refine ⟨s, hs, hfaithful, hexecuting, ?_⟩
  rw [← current_eq_unfinished hs (Sample.growth ++ Sample.restart) hfaithful hexecuting "source"]
  exact hcurrent

end Scheduler

end AdaptiveBatch
