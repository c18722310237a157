import AdaptiveBatch.Proofs.Scheduler.Abandonment

/-! # Reports that overfill a vertex

The report of a winner is followed by scheduling, which starts the vertices that have become ready.
A vertex starts on the sums of what its producers have reported, so the call is abandoned when one
of them is overfull, after the win was applied. The vertex is ready then and stays so: it cannot
start any more. Passes change no sum, so what matters are the reports up to this one.

* **`Scheduler.PassSteps.overfull_iff`** — passes overfill no vertex;
* **`Scheduler.Clogged`** — a ready vertex consumes an overfull one;
  **`Scheduler.schedule_abandoned_iff`** — then, and only then, are passes abandoned;
* **`Scheduler.overfull_reports`** — everything that depends on reported bytes. -/

namespace AdaptiveBatch

/-! ## Sums during passes -/

/-- The winners are the same when a change `f` of the task `k` gives it no other winner. -/
theorem VertexExecution.winners_modify {v : VertexExecution} {k : Nat} {f : Task → Task}
    (hf : ∀ t, v.tasks[k]? = some t → (f t).winningAttempt? = t.winningAttempt?) :
    VertexExecution.winners { v with tasks := v.tasks.modify k f } = v.winners := by
  have hmap : (v.tasks.modify k f).map Task.winningAttempt? =
      v.tasks.map Task.winningAttempt? := by
    refine List.ext_getElem? fun i => ?_
    rw [List.getElem?_map, List.getElem?_map, List.getElem?_modify]
    cases ht : v.tasks[i]? with
    | none => rfl
    | some t =>
      by_cases heq : k = i
      · subst heq
        simpa using hf t ht
      · simp [heq]
  have hwinners (l : List Task) :
      l.filterMap Task.winningAttempt? = (l.map Task.winningAttempt?).filterMap id := by
    rw [List.filterMap_map]
    rfl
  show (v.tasks.modify k f).filterMap _ = v.tasks.filterMap _
  rw [hwinners, hwinners, hmap]

/-- The tasks of a `fresh` generation have no winner. -/
theorem VertexExecution.winners_fresh (vertex : VertexId) (generation parallelism : Nat)
    (now : Instant) : (fresh vertex generation parallelism now).winners = [] := by
  unfold winners fresh
  rw [List.filterMap_map, List.filterMap_eq_nil_iff]
  exact fun _ _ => rfl

namespace Scheduler

open Scheduling ExecutionGraph

variable {s t u : Scheduler} {now : Instant} {vertex : VertexId} {o : Overflow}

/-- One more attempt of a task without a winner produces nothing: every vertex has the same
`output`. -/
theorem output_push {g : ExecutionGraph} {a : Attempt} {task : Task}
    (ht : g.taskOf? a.id = some task) (hwinner : task.winner = none) (vertex : VertexId) :
    ((g.push a).get? vertex).map VertexExecution.output =
      (g.get? vertex).map VertexExecution.output := by
  obtain ⟨v, hv, -, htask⟩ := taskOf?_eq_some_iff.1 ht
  rw [push, get?_modifyTask]
  split
  · next heq =>
    rw [← heq, hv, Option.map_some, Option.map_some, Option.map_some]
    unfold VertexExecution.output
    rw [VertexExecution.winners_modify]
    intro t ht
    obtain rfl : task = t := Option.some.inj (htask.symm.trans ht)
    unfold Task.winningAttempt? Task.push
    rw [hwinner]
    rfl
  · rfl

/-- Whether a vertex is `Overfull` depends on its `output` only. -/
theorem overfull_congr (h : (t.graph.get? vertex).map VertexExecution.output =
    (s.graph.get? vertex).map VertexExecution.output) : t.Overfull vertex ↔ s.Overfull vertex := by
  have hiff (u : Scheduler) : u.Overfull vertex ↔
      ∃ n, (u.graph.get? vertex).map VertexExecution.output = some n ∧ Word.limit ≤ n := by
    simp [Overfull]
  rw [hiff, hiff, h]

/-- No step of a pass makes a vertex `Overfull`, or one that is so less full. -/
theorem PassStep.overfull_iff (h : PassStep now s t) (vertex : VertexId) :
    t.Overfull vertex ↔ s.Overfull vertex := by
  cases h with
  | @place v task id k node executing live vertex_eq task_eq pending room =>
    have ht : s.graph.taskOf? (v.nextId id k task) = some task :=
      taskOf?_eq_some_iff.2 ⟨v, vertex_eq, rfl, task_eq⟩
    have hwinner := (Task.isPending_iff.1 pending).1
    refine overfull_congr ?_
    unfold placed
    split
    · exact output_push ht hwinner vertex
    · exact output_push ht hwinner vertex
  | @start v inputs id executing live ready vertex_eq inputs_eq pos =>
    obtain ⟨-, hnew, -⟩ := mem_readyVertices.1 ready
    unfold Overfull started
    rw [get?_regenerate]
    split
    · next heq =>
      -- Nothing has been produced, before the start or right after it.
      subst heq
      simp [hnew, VertexExecution.output, VertexExecution.winners_fresh, Word.limit]
    · exact Iff.rfl

/-- Any number of passes make no vertex `Overfull`, or one that is so less full. -/
theorem PassSteps.overfull_iff (h : PassSteps now s t) (vertex : VertexId) :
    t.Overfull vertex ↔ s.Overfull vertex :=
  h.keeps (J := fun u => u.Overfull vertex ↔ s.Overfull vertex)
    (fun _ _ hstep hu => (hstep.overfull_iff vertex).trans hu) Iff.rfl

/-! ## Passes -/

/-- The job runs, and a ready vertex consumes an overfull one. -/
structure Clogged (s : Scheduler) : Prop where
  /-- Attempts may be started. -/
  executing : s.isExecuting = true
  /-- The job has not ended. -/
  live : s.status.isTerminal = false
  /-- The inputs of a ready vertex cannot be added up. -/
  ready : ∃ id ∈ s.readyVertices, ∃ e ∈ s.job.inputsOf id, s.Overfull e.source

/-- Passes are abandoned exactly when they leave a ready vertex that consumes an `Overfull` one, so
that the job is `Clogged`. -/
theorem schedule_abandoned_iff (hs : s.Sound) (hknown : s.Known) (hadmitted : s.Admitted) :
    (∃ t, schedule now s = .error (.abandoned o) t) ↔
      o = .add ∧ ((schedule now).final s).Clogged := by
  have hpass : PassSteps now s ((schedule now).final s) := passSteps_schedule hs
  constructor
  · rintro ⟨t, ht⟩
    have hstalled := (ensures_of_eq_error ht).1 (ensures_schedule_exhausted hs)
    have hadd : o = .add := by
      by_contra ho
      exact spares_schedule ho s t ht
    have hfinal : (schedule now).final s = t := by
      rw [final, ht]
    rw [hfinal] at hpass ⊢
    -- Where no pass is made, nothing is abandoned.
    have hcond : s.status.isTerminal = false ∧ s.isExecuting = true := by
      unfold schedule at ht
      rw [get_bind_apply] at ht
      split at ht
      · cases ht
      · next h => simpa using h
    obtain ⟨id, hid, o', ho'⟩ := hstalled.2.overflow (hadmitted.sameJob hpass.sameJob)
    exact ⟨hadd, hpass.isExecuting_eq.trans hcond.2, hpass.status_eq ▸ hcond.1, id, hid,
      (inputStatistics_eq_error_iff.1 ho').2⟩
  · rintro ⟨rfl, hclogged⟩
    cases hresult : schedule now s with
    | ok _ t =>
      -- Passes that return leave no vertex that is ready.
      rw [final_of_eq_ok hresult] at hpass hclogged
      obtain ⟨-, hrest⟩ := (ensures_of_eq_ok hresult).1 (ensures_schedule_exhausted hs)
      obtain ⟨id, hid, -⟩ := hclogged.ready
      have hexecuting := hpass.isExecuting_eq.symm.trans hclogged.executing
      have hlive : s.status.isTerminal = false := hpass.status_eq ▸ hclogged.live
      rw [(hrest hexecuting hlive hknown).1] at hid
      exact absurd hid List.not_mem_nil
    | error i t =>
      cases i with
      | refused e => exact absurd hresult (avoids_schedule hs hadmitted t)
      | abandoned o =>
        obtain rfl : o = .add := by
          by_contra ho
          exact spares_schedule ho s t hresult
        exact ⟨t, rfl⟩

/-! ## Reports -/

section Report

variable {config : Config} {job : JobGraph} {backend : Backend} {start time : Instant}
  {id : AttemptId} {inputBytes outputBytes : Option Nat}

/-- A report about an attempt that is not awaited abandons nothing. -/
theorem attemptFinished_ne_abandoned (h : ¬u.graph.Awaits id) (t : Scheduler) :
    attemptFinished id inputBytes outputBytes now u ≠ .error (.abandoned o) t := by
  -- If it is not refused, it is stray, and nothing follows.
  have hstray : (onGraph (·.finishAttempt id inputBytes outputBytes now)).Ensures u
      (fun outcome _ => ∃ reason, outcome = .stray reason) fun _ => True :=
    ensures_report (fun _ reason => ⟨reason, rfl⟩) (fun _ => trivial) fun hawaits =>
      absurd hawaits h
  intro heq
  obtain ⟨outcome, w, hreport, hrest⟩ :=
    (bind_eq_abandoned_iff_of_spares (spares_onGraph _)).1 heq
  obtain ⟨reason, rfl⟩ := (ensures_of_eq_ok hreport).1 hstray
  cases hrest

/-- An applied report is abandoned exactly when it leaves the job `Clogged`. -/
theorem attemptFinished_abandoned_iff (hs : u.Sound) (hknown : u.Known) (hadmitted : u.Admitted) :
    (∃ t, attemptFinished id inputBytes outputBytes now u = .error (.abandoned o) t) ↔
      o = .add ∧ u.graph.Awaits id ∧
        ((attemptFinished id inputBytes outputBytes now).final u).Clogged := by
  by_cases h : u.graph.Awaits id
  · have hopen : Opening now u (.event (.finished id inputBytes outputBytes))
        (u.won id inputBytes outputBytes now) := .finished h
    have hfinal : (attemptFinished id inputBytes outputBytes now).final u =
        (schedule now).final (u.won id inputBytes outputBytes now) := by
      rw [final, final, attemptFinished_of_awaits h]
    rw [attemptFinished_of_awaits h, hfinal, schedule_abandoned_iff (hopen.sound hs)
      (hknown.sameJob hopen.sameJob) (hadmitted.sameJob hopen.sameJob)]
    simp [h]
  · constructor
    · rintro ⟨t, ht⟩
      exact absurd ht (attemptFinished_ne_abandoned h t)
    · rintro ⟨-, hawaits, -⟩
      exact absurd hawaits h

/-- What is `Overfull` after an applied report is so by the win itself, `u.won`. -/
theorem overfull_attemptFinished_iff (hs : u.Sound) (h : u.graph.Awaits id) (vertex : VertexId) :
    ((attemptFinished id inputBytes outputBytes now).final u).Overfull vertex ↔
      (u.won id inputBytes outputBytes now).Overfull vertex := by
  rw [final, attemptFinished_of_awaits h]
  exact (passSteps_schedule (hs.won h)).overfull_iff vertex

/-- **Reported bytes are added up exactly, or abandon what needs their sum.** Take a state that a
submitted job comes to, whatever has been reported to it. The sums of a vertex are exact as long as
they fit into 64 bits (`v.output < Word.limit`). Statistics and decisions are abandoned for the
consumers of an `Overfull` vertex and for no others; the summary is abandoned when some vertex is
overfull. The report of a finished attempt is abandoned exactly when it is applied and leaves a
ready vertex that consumes an overfull one (`Clogged`); and a vertex is overfull then only if the
applied report has left it so. Nothing else about the bytes abandons any of these. -/
theorem overfull_reports (hsubmit : submit config job backend start = .ok s)
    (hu : s.Visits time u) :
    (∀ (vertex : VertexId) (v : VertexExecution), u.graph.get? vertex = some v →
      (v.finishedOutput = if v.output < Word.limit then .ok (v.winners.length, v.output)
        else .error .add) ∧
      v.totalOutput? = if v.isFinished = true then
          if v.output < Word.limit then .ok (some v.output) else .error .add
        else .ok none) ∧
    (∀ v ∈ job.vertices, ∀ o,
      (u.inputStatistics v.id = .error o ↔
        o = .add ∧ ∃ e ∈ job.inputsOf v.id, u.Overfull e.source) ∧
      ∀ available, u.decideParallelism v.id available = .error (.abandoned o) ↔
        o = .add ∧ ∃ e ∈ job.inputsOf v.id, u.Overfull e.source) ∧
    (∀ o, u.summary = .error o ↔ o = .add ∧ ∃ v ∈ job.vertices, u.Overfull v.id) ∧
    ∀ id inputBytes outputBytes now,
      (∀ o, (∃ t, attemptFinished id inputBytes outputBytes now u = .error (.abandoned o) t) ↔
        o = .add ∧ u.graph.Awaits id ∧
          ((attemptFinished id inputBytes outputBytes now).final u).Clogged) ∧
      (u.graph.Awaits id → ∀ vertex,
        ((attemptFinished id inputBytes outputBytes now).final u).Overfull vertex ↔
          (u.won id inputBytes outputBytes now).Overfull vertex) := by
  obtain ⟨hsound, hjob⟩ := hu.sameJob (.of_submit hsubmit)
  have hknown := (Known.of_submit hsubmit).sameJob hjob
  have hadmitted := (Tracked.of_submit hsubmit).admitted.sameJob hjob
  have hgraph : u.job = job := by
    obtain ⟨order, -, -, rfl⟩ := submit_eq_ok hsubmit
    exact hjob.2.1
  refine ⟨fun _ v _ => ⟨v.finishedOutput_eq, v.totalOutput?_eq⟩, ?_, ?_, ?_⟩
  · intro v hv o
    obtain ⟨order, horder, -⟩ := submit_eq_ok hsubmit
    have hget : u.job.get? v.id = some v := by
      rw [hgraph]
      exact JobGraph.get?_of_mem_order horder ((JobGraph.perm_topologicalOrder horder).mem_iff.2 hv)
    rw [← hgraph]
    exact ⟨inputStatistics_eq_error_iff, fun available =>
      decideParallelism_eq_abandoned_iff hget available⟩
  · intro o
    rw [summary_eq_error_iff, hjob.2.2]
    simp [mem_order_of_submit hsubmit]
  · intro id inputBytes outputBytes now
    exact ⟨fun o => attemptFinished_abandoned_iff hsound hknown hadmitted, fun h vertex =>
      overfull_attemptFinished_iff hsound h vertex⟩

end Report

end Scheduler

/-! ## Two reports -/

namespace Sample

/-- A job with a consumer that waits until both tasks of its producer are finished. -/
def flood : JobGraph where
  name := "flood"
  vertices := [{ id := "producer", parallelism := some 2 }, { id := "consumer" }]
  edges := [{ source := "producer", target := "consumer", exchange := .blocking }]

/-- An attempt of the producer. -/
def floodAttempt (subtask : Nat) : AttemptId :=
  { vertex := "producer", subtask, generation := 1, number := 0 }

/-- The producer starts on two slots, and its first task produces as many bytes as a count holds. -/
def floodStart : History :=
  [(.origin, .event (.resources (view 2))),
    (later, .event (.finished (floodAttempt 0) none (some Word.max)))]

end Sample

namespace Scheduler

open Scheduling

/-- The second task of the producer has produced one byte more. Its report is abandoned in the
middle of handling it, with `.abandoned .add`, while the job goes on to run: the consumer is ready,
but cannot be decided, and there is no summary any more. -/
theorem overfull_report_abandoned : ∃ s t,
    submit Sample.config Sample.flood .willing .origin = .ok s ∧
      attemptFinished (Sample.floodAttempt 1) none (some 1) Sample.later
        (s.run Sample.floodStart) = .error (.abandoned .add) t ∧
      t.status = .running ∧ t.summary = .error .add ∧
      t.decideParallelism "consumer" none = .error (.abandoned .add) := by
  have heval : (submit Sample.config Sample.flood .willing .origin).toOption.any (fun s =>
      abandonedFor .add (fun t => decide (t.status = .running ∧ t.summary = .error .add ∧
        t.decideParallelism "consumer" none = .error (.abandoned .add)))
        (attemptFinished (Sample.floodAttempt 1) none (some 1) Sample.later
          (s.run Sample.floodStart))) = true := by
    decide +kernel
  obtain ⟨s, hs, hcall⟩ := exists_of_submit heval
  obtain ⟨t, ht, htests⟩ := exists_of_abandonedFor hcall
  exact ⟨s, t, hs, ht, of_decide_eq_true htests⟩

/-- There, the report is applied first, and leaves the consumer ready behind an overfull producer
(`t.Clogged`). -/
theorem overfull_reports_sample : ∃ s t,
    submit Sample.config Sample.flood .willing .origin = .ok s ∧
      s.Visits Sample.later (s.run Sample.floodStart) ∧
      (s.run Sample.floodStart).graph.Awaits (Sample.floodAttempt 1) ∧
      attemptFinished (Sample.floodAttempt 1) none (some 1) Sample.later
        (s.run Sample.floodStart) = .error (.abandoned .add) t ∧ t.Clogged := by
  have heval : (submit Sample.config Sample.flood .willing .origin).toOption.any (fun s =>
      abandonedFor .add (fun _ => true) (attemptFinished (Sample.floodAttempt 1) none (some 1)
        Sample.later (s.run Sample.floodStart))) = true := by
    decide +kernel
  obtain ⟨s, hs, hcall⟩ := exists_of_submit heval
  obtain ⟨t, ht, -⟩ := exists_of_abandonedFor hcall
  have hvisits := visits_run s Sample.floodStart Sample.later
  obtain ⟨-, -, -, hreports⟩ := overfull_reports hs hvisits
  obtain ⟨habandoned, -⟩ :=
    hreports (Sample.floodAttempt 1) none (some 1) Sample.later
  obtain ⟨-, hawaits, hclogged⟩ := (habandoned .add).1 ⟨t, ht⟩
  rw [final, ht] at hclogged
  exact ⟨s, t, hs, hvisits, hawaits, ht, hclogged⟩

end Scheduler

end AdaptiveBatch
