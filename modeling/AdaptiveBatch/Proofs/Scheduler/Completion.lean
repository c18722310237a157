import AdaptiveBatch.Proofs.Scheduler.Endings

/-! # Completion is detected exactly

The scheduler looks whether the whole job is finished in one place only: after a win that has
finished its vertex. That is enough. A vertex that is finished stays so, and no other change
finishes a vertex: new generations are given to unfinished vertices only and begin with unfinished
tasks, and attempts are placed, advanced and stopped without a winner. So the job is marked finished
exactly when all its vertices are, whatever the phase of the controller and the order of the
reports.

* **`ExecutionGraph.isFinished_regenerate`**, **`ExecutionGraph.isFinished_win_of_ne`** — the
  finished vertices after a start and after a win;
* **`Scheduler.Marked`** — the mark agrees with the vertices, kept by every opening and every step;
* **`Scheduler.unfailed_after`** — a finished job has not failed;
* **`Scheduler.finished_iff_all_won`** — the mark and the status in every history. -/

namespace AdaptiveBatch

/-! ## Graphs -/

namespace ExecutionGraph

variable {g : ExecutionGraph} {vertex : VertexId} {id : AttemptId} {now : Instant}

/-- Starting an unfinished vertex over, with `parallelism ≠ 0`, finishes none. -/
theorem isFinished_regenerate {parallelism : Nat} (hp : parallelism ≠ 0)
    (hopen : g.isFinished vertex = false) (other : VertexId) :
    (g.regenerate vertex parallelism now).isFinished other = g.isFinished other := by
  unfold isFinished
  rw [get?_regenerate]
  split
  · next heq =>
    subst heq
    exact (VertexExecution.isFinished_fresh hp).trans hopen.symm
  · rfl

/-- A vertex with an attempt that is awaited is not finished. -/
theorem Awaits.isFinished_eq_false (hid : g.Awaits id) : g.isFinished id.vertex = false := by
  obtain ⟨v, t, hv, -, htask, -, -, hw⟩ := hid.exists_task
  exact isFinished_of_winner_eq_none hv htask hw

/-- A win concerns its vertex only: any other `vertex` is finished if it was. -/
theorem isFinished_win_of_ne {inputBytes outputBytes : Option Nat} (h : vertex ≠ id.vertex) :
    (g.win id inputBytes outputBytes now).isFinished vertex = g.isFinished vertex := by
  unfold isFinished win
  rw [get?_modifyTask, if_neg (Ne.symm h)]

end ExecutionGraph

namespace Scheduler

open Scheduling ExecutionGraph

variable {s t : Scheduler} {now : Instant} {config : Config} {job : JobGraph} {backend : Backend}
  {start : Instant}

/-! ## Steps -/

/-- A look finishes no vertex, and starts none over that is finished. -/
theorem isFinished_look (vertex : VertexId) :
    ((look now).final s).graph.isFinished vertex = s.graph.isFinished vertex :=
  look_keeps_planned (J := fun t => t.graph.isFinished vertex = s.graph.isFinished vertex) rfl
    (fun _ _ _ => rfl)
    (fun _ _ _ _ _ _ _ _ hpos hneeds ht =>
      (isFinished_regenerate hpos (isFinished_of_needsGeneration hneeds) vertex).trans ht)
    (fun _ _ ht => ht) fun _ _ ht => ((sameSizes_cancelEach _).isFinished_eq vertex).trans ht

/-- A vertex finishes with a win, and that is not a step: `isFinished` is the same after it. -/
theorem Step.isFinished_eq (h : Step now s t) (vertex : VertexId) :
    t.graph.isFinished vertex = s.graph.isFinished vertex := by
  cases h with
  | place => exact (sameSizes_push _).isFinished_eq vertex
  | start executing live mem_order new ready vertex_eq inputs_eq pos =>
    exact isFinished_regenerate pos (isFinished_of_get?_eq_none new) vertex
  | look => exact isFinished_look vertex
  | giveUp => exact (sameSizes_cancelEach _).isFinished_eq vertex
  | react | count => rfl

/-- A step does not mark the job `finished`. -/
theorem Step.finished_eq (h : Step now s t) : t.finished = s.finished := by
  cases h with
  | look =>
    exact look_keeps (J := fun t => t.finished = s.finished) rfl (fun _ _ _ => rfl)
      (fun _ _ _ _ ht => ht) (fun _ _ ht => ht) fun _ _ ht => ht
  | place | start | giveUp | react | count => rfl

/-! ## The mark -/

/-- Whether all vertices are finished depends on the job and on `isFinished` of each vertex. -/
theorem allFinished_congr (hjob : t.job = s.job)
    (hgraph : ∀ vertex, t.graph.isFinished vertex = s.graph.isFinished vertex) :
    t.allFinished = s.allFinished := by
  unfold allFinished
  simp only [hjob, hgraph]

/-- The job is marked finished exactly when all its vertices are. -/
def Marked (s : Scheduler) : Prop := s.finished = s.allFinished

/-- What changes neither the mark nor which vertices are finished keeps the mark exact. -/
theorem Marked.of_eq (h : s.Marked) (hfinished : t.finished = s.finished) (hjob : t.job = s.job)
    (hgraph : ∀ vertex, t.graph.isFinished vertex = s.graph.isFinished vertex) : t.Marked :=
  (hfinished.trans h).trans (allFinished_congr hjob hgraph).symm

/-- Starting an unfinished vertex over keeps the mark exact. -/
theorem Marked.restarted (h : s.Marked) {vertex : VertexId} {parallelism : Nat}
    (hp : parallelism ≠ 0) (hopen : s.graph.isFinished vertex = false) :
    (s.restarted vertex parallelism now).Marked :=
  h.of_eq rfl rfl (isFinished_regenerate hp hopen)

/-- A step keeps the mark exact. -/
theorem Step.marked (h : Step now s t) (hs : s.Marked) : t.Marked :=
  hs.of_eq h.finished_eq h.sameJob.2.1 h.isFinished_eq

/-- A win that finishes its vertex makes the scheduler look at all of them; another win finishes
none. Both keep the mark exact. -/
theorem Marked.won {id : AttemptId} {inputBytes outputBytes : Option Nat} (h : s.Marked)
    (hid : s.graph.Awaits id) : (s.won id inputBytes outputBytes now).Marked := by
  have hopen : Opening now s (.event (.finished id inputBytes outputBytes))
      (s.won id inputBytes outputBytes now) := .finished hid
  have hjob : (s.won id inputBytes outputBytes now).job = s.job := hopen.sameJob.2.1
  unfold Marked
  rw [finished_won, h]
  cases hvertex : (s.graph.win id inputBytes outputBytes now).isFinished id.vertex with
  | true =>
    rw [Bool.true_and, Bool.or_eq_right_iff_imp]
    -- The vertices that were finished still are.
    intro hall
    refine List.all_eq_true.2 fun v hv => ?_
    rw [hjob] at hv
    rw [graph_won.1]
    by_cases hv' : v.id = id.vertex
    · rw [hv']
      exact hvertex
    · rw [isFinished_win_of_ne hv']
      exact List.all_eq_true.1 hall v hv
  | false =>
    rw [Bool.false_and, Bool.or_false]
    refine (allFinished_congr hjob fun vertex => ?_).symm
    rw [graph_won.1]
    by_cases hv : vertex = id.vertex
    · rw [hv, hvertex, hid.isFinished_eq_false]
    · exact isFinished_win_of_ne hv

/-- What comes before the look of a call keeps the mark exact. -/
theorem Opening.marked {c : Call} (h : Opening now s c t) (hs : s.Marked) : t.Marked := by
  cases h with
  | nothing | resources | tick => exact hs
  | running | progress | failed => exact hs.of_eq rfl rfl sameSizes_modifyAttempt.isFinished_eq
  | finished awaits => exact hs.won awaits
  | scaled =>
    refine restartAll_keeps hs ?_ fun _ ht => ht
    intro u vertex parallelism hpos hopen hu
    exact hu.restarted hpos (isFinished_of_unfinished? hopen)

/-- Nothing is finished in a new job, and it has a vertex, so it is not to be `finished`. -/
theorem Marked.of_submit (h : submit config job backend start = .ok s) : s.Marked := by
  obtain ⟨order, horder, -, rfl⟩ := submit_eq_ok h
  obtain ⟨v, hv, -⟩ := JobGraph.exists_source horder
  refine Eq.symm (List.all_eq_false.2 ⟨v, hv, ?_⟩)
  rw [isFinished_of_get?_eq_none (get?_empty v.id)]
  exact Bool.false_ne_true

/-! ## The status -/

/-- Only a win marks the job `finished`; any other opening leaves the mark. -/
theorem Opening.finished_eq {c : Call} (h : Opening now s c t)
    (hc : ∀ id inputBytes outputBytes, c = .event (.finished id inputBytes outputBytes) →
      ¬s.graph.Awaits id) : t.finished = s.finished := by
  cases h with
  | finished awaits => exact absurd awaits (hc _ _ _ rfl)
  | scaled =>
    exact restartAll_keeps (J := fun t => t.finished = s.finished) rfl (fun _ _ _ _ _ ht => ht)
      fun _ ht => ht
  | nothing | running | progress | failed | resources | tick => rfl

/-- A call that wins does nothing afterwards but to schedule, so it does not end in a new
`failure`. -/
theorem failure_after_win {id : AttemptId} {inputBytes outputBytes : Option Nat} (hs : s.Sound)
    (hid : s.graph.Awaits id) :
    (s.after now (.event (.finished id inputBytes outputBytes))).failure = s.failure := by
  refine ensures_final (P := fun t => t.failure = s.failure) |>.1 ?_
  show (attemptFinished id inputBytes outputBytes now >>= _ :
    Scheduling (Option ScaleRequest)).Ensures s _ _
  rw [ensures_bind, ensures_congr (attemptFinished_of_awaits hid)]
  have hpass : PassSteps now (s.won id inputBytes outputBytes now) _ :=
    passSteps_schedule (hs.won hid)
  exact ensures_final.2 ((congrArg failure hpass.frame :).trans graph_won.2)

/-- No call makes a `finished` job fail, or marks a job that fails. -/
theorem unfailed_after (h : s.EndsCleanly) (hs : s.finished = true → s.failure = none)
    (now : Instant) (c : Call) :
    (s.after now c).finished = true → (s.after now c).failure = none := by
  by_cases hended : s.status.isTerminal = true
  · rw [after_of_ended h.clean hended]
    exact hs
  · rw [isTerminal_status_iff, not_or, not_or, Option.not_isSome_iff_eq_none] at hended
    obtain ⟨hfailure, hfinished, -⟩ := hended
    by_cases hwin : ∃ id inputBytes outputBytes,
        c = .event (.finished id inputBytes outputBytes) ∧ s.graph.Awaits id
    · obtain ⟨id, inputBytes, outputBytes, rfl, hid⟩ := hwin
      intro _
      rw [failure_after_win h.sound hid, hfailure]
    · -- Nothing else marks the job, so it is still not finished.
      intro hmark
      obtain ⟨t, hopen, hsteps⟩ := after_steps h.sound now c
      have hopening := hopen.finished_eq fun id inputBytes outputBytes hc hid =>
        hwin ⟨id, inputBytes, outputBytes, hc, hid⟩
      have hlast : (s.after now c).finished = t.finished :=
        hsteps.keeps (J := fun u => u.finished = t.finished)
          (fun _ _ hstep hu => hstep.finished_eq.trans hu) rfl
      rw [hlast, hopening] at hmark
      exact absurd hmark hfinished

/-- A `finished` job has not failed, whatever its history. -/
theorem unfailed_run (h : submit config job backend start = .ok s) (history : History) :
    (s.run history).finished = true → (s.run history).failure = none := by
  have hnew : s.finished = true → s.failure = none := by
    obtain ⟨order, -, -, rfl⟩ := submit_eq_ok h
    exact fun _ => rfl
  exact (run_induction (J := fun t => t.EndsCleanly ∧ (t.finished = true → t.failure = none))
    ⟨.of_submit h, hnew⟩
    (fun t now c ht => ⟨ht.1.after now c, unfailed_after ht.1 ht.2 now c⟩) history).2

/-- **Completion is detected exactly.** In every state that a submitted job comes to, whatever it is
told and in whatever order, it is marked `finished` if and only if every vertex of the job has been
started and every task of its generation has a `winner`. Then, and only then, its status says so. -/
theorem finished_iff_all_won (hsubmit : submit config job backend start = .ok s)
    (history : History) :
    ((s.run history).finished = true ↔ ∀ v ∈ job.vertices, ∃ x,
      (s.run history).graph.get? v.id = some x ∧ ∀ t ∈ x.tasks, t.winner.isSome = true) ∧
      ((s.run history).status = .finished ↔ (s.run history).finished = true) := by
  have hsound := Sound.of_submit hsubmit
  have hmarked : (s.run history).Marked := run_keeps hsound (fun _ _ _ _ hopen => hopen.marked)
    (fun _ _ _ hstep => hstep.marked) (.of_submit hsubmit) history
  have hjob : (s.run history).job = job := by
    rw [(sameJob_run hsound history).2.1]
    obtain ⟨order, -, -, rfl⟩ := submit_eq_ok hsubmit
    rfl
  constructor
  · rw [hmarked, allFinished, hjob, List.all_eq_true]
    refine forall₂_congr fun v _ => ?_
    rw [ExecutionGraph.isFinished, Option.any_eq_true]
    exact exists_congr fun x => and_congr_right fun _ => VertexExecution.isFinished_iff
  · unfold status
    constructor
    · intro h
      split at h
      · cases h
      · split at h
        · next hfinished => exact hfinished
        · split at h <;> cases h
    · intro h
      rw [unfailed_run hsubmit history h, h]
      rfl

/-! ### The pipeline -/

/-- The consumer of the pipeline ends before its producer. -/
def sampleConsumed : History :=
  [(.origin, .event (.resources (Sample.view 2))),
    (Sample.later, .event (.finished { sampleConsumer with subtask := 1 } none (some 5))),
    (Sample.later, .event (.finished sampleConsumer none (some 5)))]

/-- Then so does the producer. -/
def sampleCompletion : History :=
  sampleConsumed ++ [(Sample.latest, .event (.finished Sample.producerAttempt none (some 5)))]

/-- With the consumer alone the job is not finished (`sampleConsumed`); with the producer it is
(`sampleCompletion`). -/
theorem finished_iff_all_won_sample : ∃ s,
    submit Sample.config Sample.pipeline .willing .origin = .ok s ∧
      (¬∀ v ∈ Sample.pipeline.vertices, ∃ x,
        (s.run sampleConsumed).graph.get? v.id = some x ∧ ∀ t ∈ x.tasks, t.winner.isSome = true) ∧
      (∀ v ∈ Sample.pipeline.vertices, ∃ x,
        (s.run sampleCompletion).graph.get? v.id = some x ∧
          ∀ t ∈ x.tasks, t.winner.isSome = true) ∧
      (s.run sampleCompletion).status = .finished := by
  have htest : (submit Sample.config Sample.pipeline .willing .origin).toOption.any (fun s =>
      (s.run sampleCompletion).finished && !(s.run sampleConsumed).finished) = true := by
    decide +kernel
  obtain ⟨s, hs, heval⟩ := exists_of_submit htest
  obtain ⟨hdone, hopen⟩ := Bool.and_eq_true_iff.1 heval
  obtain ⟨hiff, hstatus⟩ := finished_iff_all_won hs sampleCompletion
  refine ⟨s, hs, fun hall => ?_, hiff.1 hdone, hstatus.2 hdone⟩
  rw [(finished_iff_all_won hs sampleConsumed).1.2 hall] at hopen
  cases hopen

end Scheduler

end AdaptiveBatch
