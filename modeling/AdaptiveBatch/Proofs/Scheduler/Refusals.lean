import AdaptiveBatch.Proofs.Scheduler.Unrefused

/-! # Refused events

An event that the execution refuses was refused at the first thing that it has done, so nothing has
changed. There is one exception: the vertices of a request are restarted one after the other, and
when one of them is to run without tasks, those before it have been restarted already.

* **`Scheduler.toRestart`**, **`Scheduler.restartedEach`** — the vertices that a request restarts,
  and the state after some restarts;
* **`Scheduler.eq_of_refused`** — all other events leave the state as it was;
* **`Scheduler.state_after_refusal`** — the state after a refused event, in every run;
* **`Scheduler.refused_request_restarts`** — a run in which the exception occurs. -/

namespace AdaptiveBatch.Scheduler

open Scheduling ExecutionGraph

variable {s t : Scheduler} {now : Instant} {e : ExecutionError} {vertex : VertexId}

/-! ## Reports and views -/

/-- A refused operation on the execution, `onGraph f`, has changed nothing. -/
theorem eq_of_onGraph_eq_error {α : Type} {i : Interruption}
    {f : ExecutionGraph → Except ExecutionError (α × ExecutionGraph)}
    (h : onGraph f s = .error i t) : t = s := by
  have hself : (onGraph f).Ensures s (fun _ _ => True) fun t => t = s := by
    rw [ensures_onGraph]
    exact ⟨fun _ _ _ => trivial, fun _ _ => rfl⟩
  exact (ensures_of_eq_error h).1 hself

/-- A report that is refused has changed nothing, if what follows it, `k`, is not refused by the
execution. -/
theorem eq_of_report_refused {α β : Type} {id : AttemptId} {change : Task → Task}
    {result : ExecutionGraph → α} {k : Reported α → Scheduling β}
    (hstray : ∀ reason, (k (.stray reason)).Avoids (.execution e) s)
    (happlied : s.graph.Awaits id →
      (k (.applied (result (s.graph.modifyTask id.vertex id.subtask change)))).Avoids
        (.execution e) { s with graph := s.graph.modifyTask id.vertex id.subtask change })
    (hrefused : (onGraph (·.report id change result) >>= k) s =
      .error (.refused (.execution e)) t) : t = s := by
  have hreport : (onGraph (·.report id change result)).Ensures s
      (fun a u => (k a).Avoids (.execution e) u) fun _ => True :=
    ensures_report (fun _ reason => hstray reason) (fun _ => trivial) happlied
  exact eq_of_onGraph_eq_error
    (refused_of_bind (f := k) (fun a u hu => (ensures_of_eq_ok hu).1 hreport) hrefused)

/-- After the opening of a call `schedule` is not refused by the execution. -/
theorem avoids_schedule_of_opening {c : Call} (hs : s.Sound) (h : s.Tracked)
    (hopen : Opening now s c t) : (schedule now).Avoids (.execution e) t :=
  avoids_schedule (hopen.sound hs) (hopen.tracked h).admitted

/-- After a win there is nothing to refuse, so a success that is refused has changed nothing. -/
theorem eq_of_attemptFinished_refused {id : AttemptId} {inputBytes outputBytes : Option Nat}
    (hs : s.Sound) (h : s.Tracked)
    (hrefused : attemptFinished id inputBytes outputBytes now s =
      .error (.refused (.execution e)) t) : t = s := by
  by_cases hid : s.graph.Awaits id
  · rw [attemptFinished_of_awaits hid] at hrefused
    exact absurd hrefused (avoids_schedule_of_opening hs h (Opening.finished hid) t)
  · unfold attemptFinished at hrefused
    exact eq_of_report_refused (fun _ => avoids_pure () s) (fun hawaits => absurd hawaits hid)
      hrefused

/-- After a failure there is nothing to refuse, except that the job may give up; a failure that is
refused by the execution has changed nothing. -/
theorem eq_of_attemptFailed_refused {id : AttemptId} (hs : s.Sound) (h : s.Tracked)
    (hrefused : attemptFailed id now s = .error (.refused (.execution e)) t) : t = s := by
  unfold attemptFailed at hrefused
  refine eq_of_report_refused (fun _ => avoids_pure () s) ?_ hrefused
  intro hid
  split
  · next heq => cases heq
  · exact avoids_schedule_of_opening hs h (Opening.failed hid)
  · exact avoids_giveUp SchedulerError.noConfusion now _

/-- A change of the resources is not refused by the execution. -/
theorem avoids_resourcesChanged {view : ResourceView} (hs : s.Sound) (h : s.Tracked) :
    (resourcesChanged view now).Avoids (.execution e) s := by
  unfold resourcesChanged
  rw [avoids_get_bind]
  split
  · exact avoids_pure none s
  · have hopen : Opening now s (.event (.resources view)) (s.viewing view) := .resources
    refine avoids_look_bind (hopen.sound hs) (hopen.tracked h)
      (fun _ _ => SchedulerError.noConfusion) ?_
    intro request? t hsound hadmitted
    rw [avoids_bind]
    exact ⟨avoids_schedule hsound hadmitted, fun _ u _ => avoids_pure request? u⟩

/-- An event other than `.scaled request` leaves the state as it was, when the execution refuses
it. -/
theorem eq_of_refused {event : Event} (hs : s.Sound) (h : s.Tracked)
    (hevent : ∀ request, event ≠ .scaled request)
    (hrefused : event.call now s = .error (.refused (.execution e)) t) : t = s := by
  cases event with
  | running id =>
    exact eq_of_report_refused (fun _ => avoids_pure () s) (fun _ => avoids_pure () _)
      (refused_of_bind (fun _ u _ => avoids_pure _ u) hrefused)
  | progress id bytes =>
    exact eq_of_report_refused (fun _ => avoids_pure () s) (fun _ => avoids_pure () _)
      (refused_of_bind (fun _ u _ => avoids_pure _ u) hrefused)
  | finished id inputBytes outputBytes =>
    exact eq_of_attemptFinished_refused hs h
      (refused_of_bind (fun _ u _ => avoids_pure _ u) hrefused)
  | failed id =>
    exact eq_of_attemptFailed_refused hs h (refused_of_bind (fun _ u _ => avoids_pure _ u) hrefused)
  | resources view => exact absurd hrefused (avoids_resourcesChanged hs h t)
  | scaled request => exact absurd rfl (hevent request)

/-! ## Requests -/

/-- The vertices of a plan that have started and not finished. -/
def toRestart (s : Scheduler) (planned : List (VertexId × Nat)) : List (VertexId × Nat) :=
  planned.filter fun p => (s.graph.get? p.1).any (!·.isFinished)

/-- The state after restarts, one after the other. -/
def restartedEach (s : Scheduler) (planned : List (VertexId × Nat)) (now : Instant) : Scheduler :=
  planned.foldl (fun s p => s.restarted p.1 p.2 now) s

/-- Restarts change the `graph` and tell the `backend`, and nothing else. -/
theorem restartedEach_frame (planned : List (VertexId × Nat)) :
    s.restartedEach planned now = { s with
      graph := (s.restartedEach planned now).graph
      backend := (s.restartedEach planned now).backend } := by
  induction planned generalizing s with
  | nil => rfl
  | cons p rest ih => exact ih

/-- Starting a vertex over without tasks is refused with `.zeroParallelism` and changes nothing. -/
theorem restart_zero : restart vertex 0 now s =
    .error (.refused (.execution (.zeroParallelism vertex))) s := by
  rfl

/-- Starting a vertex over with tasks leads to `s.restarted`. -/
theorem restart_of_ne_zero {parallelism : Nat} (h : parallelism ≠ 0) :
    restart vertex parallelism now s = .ok () (s.restarted vertex parallelism now) :=
  eq_ok_iff.2 (ensures_restart (fun hzero => h hzero) fun _ => ⟨rfl, rfl⟩)

/-- Vertices that are not among the first one stay as they were, so `toRestart` lists the same of
those to come. -/
theorem toRestart_restarted {parallelism : Nat} {planned : List (VertexId × Nat)}
    (h : ∀ p ∈ planned, p.1 ≠ vertex) :
    (s.restarted vertex parallelism now).toRestart planned = s.toRestart planned := by
  apply List.filter_congr
  intro p hp
  have hget : (s.restarted vertex parallelism now).graph.get? p.1 = s.graph.get? p.1 :=
    (get?_regenerate _ _).trans (if_neg (Ne.symm (h p hp)))
  rw [hget]

/-- Restarts come to a stop at the first vertex that is to run without tasks, `(vertex, 0)`, after
those before it. -/
theorem forM_restartPlanned_eq_error {i : Interruption} : ∀ (planned : List (VertexId × Nat))
    (s : Scheduler), (planned.map (·.1)).Nodup → planned.forM (restartPlanned now) s = .error i t →
    ∃ before vertex after, s.toRestart planned = before ++ (vertex, 0) :: after ∧
      (∀ p ∈ before, p.2 ≠ 0) ∧ i = .refused (.execution (.zeroParallelism vertex)) ∧
        t = s.restartedEach before now
  | [], _, _, h => by cases h
  | (vertex, parallelism) :: rest, s, hnodup, h => by
    obtain ⟨hvertex, hrest⟩ := List.nodup_cons.1 hnodup
    have hothers : ∀ p ∈ rest, p.1 ≠ vertex := by
      rintro p hp rfl
      exact hvertex (List.mem_map.2 ⟨p, hp, rfl⟩)
    have hfirst : restartPlanned now (vertex, parallelism) s =
        (if (s.graph.get? vertex).any (!·.isFinished) = true then restart vertex parallelism now
          else pure ()) s := rfl
    have hloop : EStateM.bind (restartPlanned now (vertex, parallelism))
        (fun _ => rest.forM (restartPlanned now)) s = .error i t := h
    unfold EStateM.bind at hloop
    rw [hfirst] at hloop
    unfold toRestart
    rw [List.filter_cons]
    by_cases hopen : (s.graph.get? vertex).any (!·.isFinished) = true
    · rw [if_pos hopen] at hloop ⊢
      by_cases hzero : parallelism = 0
      · -- This is the vertex; nothing has been restarted before it.
        subst hzero
        rw [restart_zero] at hloop
        cases hloop
        exact ⟨[], vertex, _, rfl, fun _ hp => absurd hp List.not_mem_nil, rfl, rfl⟩
      · rw [restart_of_ne_zero hzero] at hloop
        obtain ⟨before, stop, after, hsplit, hpos, hi, ht⟩ :=
          forM_restartPlanned_eq_error rest _ hrest hloop
        rw [toRestart_restarted hothers] at hsplit
        refine ⟨(vertex, parallelism) :: before, stop, after, ?_, ?_, hi, ht⟩
        · exact congrArg (List.cons _) hsplit
        · exact List.forall_mem_cons.2 ⟨hzero, hpos⟩
    · rw [if_neg hopen] at hloop ⊢
      exact forM_restartPlanned_eq_error rest s hrest hloop

/-- A refused request has restarted the vertices `before` the one that is to run without tasks, and
changed nothing else. -/
theorem refused_request {request : ScaleRequest} (hs : s.Sound) (h : s.Tracked)
    (hrefused : (Event.scaled request).call now s = .error (.refused (.execution e)) t) :
    ∃ before vertex after, s.toRestart request.plan.toList = before ++ (vertex, 0) :: after ∧
      (∀ p ∈ before, p.2 ≠ 0) ∧ e = .zeroParallelism vertex ∧ t = s.restartedEach before now := by
  have happly : (if (s.status != .rescaling) = true then pure ()
      else restartAll request now >>= fun _ => look now >>= fun _ => schedule now :
        Scheduling Unit) s = .error (.refused (.execution e)) t :=
    refused_of_bind (fun _ u _ => avoids_pure _ u) hrefused
  split at happly
  · cases happly
  · next hstatus =>
    have hrescaling : s.status = .rescaling := by simpa using hstatus
    have hopen : Opening now s (.event (.scaled request)) ((restartAll request now).final s) :=
      .scaled hrescaling
    -- All that comes after the restarts fits, so the refusal is among them.
    have hrestart : restartAll request now s = .error (.refused (.execution e)) t := by
      refine refused_of_bind ?_ happly
      intro _ u hu
      rw [final_of_eq_ok hu] at hopen
      exact avoids_look_bind (hopen.sound hs) (hopen.tracked h)
        (fun _ _ => SchedulerError.noConfusion) fun _ _ => avoids_schedule
    have hloop := refused_of_bind (fun _ u _ => avoids_modify _ u) hrestart
    obtain ⟨before, vertex, after, hsplit, hpos, hi, ht⟩ :=
      forM_restartPlanned_eq_error _ s request.plan.nodup_vertices hloop
    exact ⟨before, vertex, after, hsplit, hpos,
      SchedulerError.execution.inj (Interruption.refused.inj hi), ht⟩

/-! ## Every run -/

/-- **What a refused event leaves behind.** When the execution refuses a report, everything is as it
was before. It refuses a request only because an unfinished vertex is to run without tasks
(`zeroParallelism`). Then the unfinished vertices that come before it in the plan have been
restarted and their attempts given up (`restartedEach`), and everything else is as it was: the
controller, the counters and the status of the job. -/
theorem state_after_refusal {config : Config} {job : JobGraph} {backend : Backend} {start : Instant}
    (hsubmit : submit config job backend start = .ok s) (history : History) {event : Event}
    (hrefused : event.call now (s.run history) = .error (.refused (.execution e)) t) :
    ((∀ request, event ≠ .scaled request) → t = s.run history) ∧
      ∀ request, event = .scaled request →
        (∃ before vertex after,
          (s.run history).toRestart request.plan.toList = before ++ (vertex, 0) :: after ∧
            (∀ p ∈ before, p.2 ≠ 0) ∧ e = .zeroParallelism vertex ∧
              t = (s.run history).restartedEach before now) ∧
        t = { s.run history with graph := t.graph, backend := t.backend } ∧
          t.status = (s.run history).status := by
  obtain ⟨hs, h⟩ := sound_and_tracked_run (.of_submit hsubmit) (.of_submit hsubmit) history
  constructor
  · intro hevent
    exact eq_of_refused hs h hevent hrefused
  · rintro request rfl
    obtain ⟨before, vertex, after, hsplit, hpos, he, rfl⟩ := refused_request hs h hrefused
    have hframe : (s.run history).restartedEach before now = { s.run history with
        graph := ((s.run history).restartedEach before now).graph
        backend := ((s.run history).restartedEach before now).backend } :=
      restartedEach_frame before
    refine ⟨⟨before, vertex, after, hsplit, hpos, he, rfl⟩, hframe, ?_⟩
    rw [hframe]
    rfl

/-! ### A refused request -/

/-- Two sources that do not depend on each other. -/
def samplePair : JobGraph := { name := "pair", vertices := [{ id := "a" }, { id := "b" }] }

/-- The sources run on two slots, and one slot is lost, so that a restart is asked for. -/
def sampleLoss : History :=
  [(.origin, .event (.resources (Sample.view 2))),
    (Sample.later, .event (.resources (Sample.view 1)))]

/-- The first source keeps its two tasks, and the second one is to run without tasks. -/
def sampleRequest : ScaleRequest :=
  { plan := ((∅ : ParallelismPlan).insert "a" 2).insert "b" 0
    reason := .decrease
    issuedAt := Sample.later }

/-- Whether a call was refused because a vertex was to run without tasks, in a state that passes a
test. -/
def refusedWith {α : Type} (vertex : VertexId) (P : Scheduler → Bool)
    (r : EStateM.Result Interruption Scheduler α) : Bool :=
  match r with
  | .error (.refused (.execution e)) t => decide (e = .zeroParallelism vertex) && P t
  | _ => false

/-- A call for which `refusedWith vertex P` tests positive was refused for that vertex, in a state
with `P`. -/
theorem exists_of_refusedWith {α : Type} {P : Scheduler → Bool}
    {r : EStateM.Result Interruption Scheduler α} (h : refusedWith vertex P r = true) :
    ∃ t, r = .error (.refused (.execution (.zeroParallelism vertex))) t ∧ P t = true := by
  unfold refusedWith at h
  split at h
  · next e t =>
    rw [Bool.and_eq_true_iff] at h
    exact ⟨t, by rw [of_decide_eq_true h.1], h.2⟩
  · cases h

/-- The `sampleRequest` is refused after the first source has been restarted: its attempts are given
up, while the job goes on as if nothing had happened. -/
theorem refused_request_restarts : ∃ s t,
    submit Sample.config samplePair .willing .origin = .ok s ∧
      (Event.scaled sampleRequest).call Sample.latest (s.run sampleLoss) =
        .error (.refused (.execution (.zeroParallelism "b"))) t ∧
      t.graph ≠ (s.run sampleLoss).graph ∧
      (t.backend.calls.filter fun call => !call.isDeploy) ≠ [] ∧ t.status = .rescaling := by
  have heval : (submit Sample.config samplePair .willing .origin).toOption.any
      (fun s => refusedWith "b" (fun t => decide (t.graph ≠ (s.run sampleLoss).graph ∧
        (t.backend.calls.filter fun call => !call.isDeploy) ≠ [] ∧ t.status = .rescaling))
        ((Event.scaled sampleRequest).call Sample.latest (s.run sampleLoss))) = true := by
    decide +kernel
  obtain ⟨s, hs, hcall⟩ := exists_of_submit heval
  obtain ⟨t, ht, hchanged⟩ := exists_of_refusedWith hcall
  exact ⟨s, t, hs, ht, of_decide_eq_true hchanged⟩

/-- After the `sampleRequest`, which is refused for `"b"`, the first source `"a"` is the one that
has been restarted. -/
theorem state_after_refusal_sample : ∃ s t,
    submit Sample.config samplePair .willing .origin = .ok s ∧
      (Event.scaled sampleRequest).call Sample.latest (s.run sampleLoss) =
        .error (.refused (.execution (.zeroParallelism "b"))) t ∧
      t = (s.run sampleLoss).restartedEach [("a", 2)] Sample.latest := by
  have heval : (submit Sample.config samplePair .willing .origin).toOption.any
      (fun s => refusedWith "b" (fun _ => decide
        ((s.run sampleLoss).toRestart sampleRequest.plan.toList = [("a", 2), ("b", 0)]))
        ((Event.scaled sampleRequest).call Sample.latest (s.run sampleLoss))) = true := by
    decide +kernel
  obtain ⟨s, hs, hcall⟩ := exists_of_submit heval
  obtain ⟨t, ht, hlist⟩ := exists_of_refusedWith hcall
  obtain ⟨⟨before, vertex, after, hsplit, hpos, -, hstate⟩, -⟩ :=
    (state_after_refusal hs sampleLoss ht).2 sampleRequest rfl
  rw [of_decide_eq_true hlist] at hsplit
  -- The vertex without tasks is the second one.
  have hbefore : before = [("a", 2)] := by
    rcases before with _ | ⟨first, _ | ⟨second, rest⟩⟩
    · simp at hsplit
    · obtain ⟨rfl, -⟩ := List.cons.inj hsplit
      rfl
    · simp at hsplit
  exact ⟨s, t, hs, ht, by rw [hstate, hbefore]⟩

end AdaptiveBatch.Scheduler
