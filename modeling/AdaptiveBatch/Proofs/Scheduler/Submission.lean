import AdaptiveBatch.Proofs.Job.Order
import AdaptiveBatch.Proofs.Scheduler.Runs
import AdaptiveBatch.Proofs.Scheduler.Steps

/-! # Submitted jobs

**`Scheduler.submit_eq_ok`** says what the scheduler of a new job looks like, and what was checked
before; nothing has been started yet, so the invariant behind the steps holds. **`Sample.growth`** and
**`Sample.restart`** are a run of a small job; **`Sample.pipeline`** has two vertices. -/

namespace AdaptiveBatch.Scheduler

variable {config : Config} {job : JobGraph} {backend : Backend} {now : Instant} {s : Scheduler}

/-- A loop `l.forM f` that only checks succeeds iff every element passes. -/
theorem forM_eq_ok {α ε : Type} {f : α → Except ε Unit} {l : List α} :
    l.forM f = .ok () ↔ ∀ a ∈ l, f a = .ok () := by
  induction l with
  | nil => simp [List.forM_eq_forM, pure, Except.pure]
  | cons a rest ih =>
    have hcons : (a :: rest).forM f = f a >>= fun _ => rest.forM f := rfl
    rw [hcons, List.forall_mem_cons, ← ih]
    cases hf : f a with
    | error e => simp [bind, Except.bind]
    | ok u => simp [bind, Except.bind]

/-- What submission checks, `config.validate`, the order of the job and each of its vertices, and
the scheduler it gives. -/
theorem submit_eq_ok_iff : submit config job backend now = .ok s ↔
    config.validate = .ok () ∧ ∃ order, job.topologicalOrder = .ok order ∧
      (∀ v ∈ job.vertices, (Sizing.ofConfig config).validateVertex v = .ok ()) ∧
      s = {
        config, job, backend
        order := order.map (·.id)
        speculation := .ofConfig config
        controller := .ofRequirements config.rescale
          (sourceRequirements (Sizing.ofConfig config) job) now } := by
  unfold submit
  rw [← forM_eq_ok]
  cases config.validate with
  | error e => simp [Except.mapError, bind, Except.bind]
  | ok u =>
    cases job.topologicalOrder with
    | error e => simp [Except.mapError, bind, Except.bind]
    | ok order =>
      simp only [Except.mapError, bind, Except.bind, pure, Except.pure]
      cases job.vertices.forM (Sizing.ofConfig config).validateVertex with
      | error e => simp
      | ok u => simp [eq_comm]

/-- The scheduler of a submitted job, and what submission has checked. -/
theorem submit_eq_ok (h : submit config job backend now = .ok s) :
    ∃ order, job.topologicalOrder = .ok order ∧
      (∀ v ∈ job.vertices, (Sizing.ofConfig config).validateVertex v = .ok ()) ∧
      s = {
        config, job, backend
        order := order.map (·.id)
        speculation := .ofConfig config
        controller := .ofRequirements config.rescale
          (sourceRequirements (Sizing.ofConfig config) job) now } :=
  (submit_eq_ok_iff.1 h).2

/-- In a new job nothing has been started: its graph is `∅`. -/
theorem graph_of_submit (h : submit config job backend now = .ok s) : s.graph = ∅ := by
  obtain ⟨order, -, -, rfl⟩ := submit_eq_ok h
  rfl

/-- A new job has the `backend` with which it was submitted. -/
theorem backend_of_submit (h : submit config job backend now = .ok s) : s.backend = backend := by
  obtain ⟨order, -, -, rfl⟩ := submit_eq_ok h
  rfl

/-- The state of a new job is sound. -/
theorem Sound.of_submit (h : submit config job backend now = .ok s) : s.Sound := by
  obtain ⟨order, horder, -, rfl⟩ := submit_eq_ok h
  exact ⟨ExecutionGraph.wellFormed_empty, ExecutionGraph.settled_empty,
    JobGraph.nodup_topologicalOrder horder⟩

/-- A test `P` that is positive on the scheduler of a new job tells that there is one. -/
theorem exists_of_submit {P : Scheduler → Bool}
    (h : (submit config job backend now).toOption.any P = true) :
    ∃ s, submit config job backend now = .ok s ∧ P s = true := by
  cases hs : submit config job backend now with
  | error e => rw [hs] at h; cases h
  | ok s => rw [hs] at h; exact ⟨s, rfl, h⟩

end AdaptiveBatch.Scheduler

/-! ## A small run -/

namespace AdaptiveBatch.Sample

/-- Vertices run as at most two tasks. -/
def config : Config := { auto := { maxParallelism := some 2 } }

/-- A job with a single source. -/
def job : JobGraph := { name := "sample", vertices := [{ id := "source" }] }

/-- A backend that refuses the second attempt only. -/
def accepts (n : Nat) : Bool := n != 1

/-- So many slots of a node. -/
def view (slots : Nat) : ResourceView := ResourceView.addNode ∅ "node" slots 1 1

/-- Some time after the origin. -/
def later : Instant := ⟨10 * nanosPerSecond, by decide⟩

/-- As long again. -/
def latest : Instant := ⟨20 * nanosPerSecond, by decide⟩

/-- The first attempt of the second task, after one restart. -/
def secondTask : AttemptId :=
  { vertex := "source", subtask := 1, generation := 2, number := 0 }

/-- Two tasks for the source. -/
def request : ScaleRequest :=
  { plan := (∅ : ParallelismPlan).insert "source" 2, reason := .increase, issuedAt := latest }

/-- The job starts late on one slot; another slot comes. -/
def growth : History :=
  [(.origin, .event (.resources (view 1))), (later, .poll), (latest, .event (.resources (view 2)))]

/-- The job is restarted on both slots, and one of its tasks is finished. -/
def restart : History :=
  [(latest, .event (.scaled request)), (latest, .event (.finished secondTask none none))]

/-- A job whose consumer runs together with its producer, as two tasks. -/
def pipeline : JobGraph where
  name := "pipeline"
  vertices := [{ id := "producer", parallelism := some 1 }, { id := "consumer", parallelism := some 2 }]
  edges := [{ source := "producer", target := "consumer", exchange := .pipelined }]

/-- Slow tasks get further attempts as soon as half of the tasks have finished. -/
def watchful : Config :=
  { speculative := { enabled := true }, detector := { lowerBound := .ofSeconds 1, ratio := 0.5 } }

/-- A job with a single source of two tasks. -/
def twins : JobGraph := { name := "twins", vertices := [{ id := "source", parallelism := some 2 }] }

/-- The attempts of the tasks of a first generation. -/
def twin (subtask number : Nat) : AttemptId :=
  { vertex := "source", subtask, generation := 1, number }

/-- Some time after a block of one minute, that begins at `latest`, has ended. -/
def afterwards : Instant := ⟨90 * nanosPerSecond, by decide⟩

/-- Both tasks run on one node, a spare node comes, and one of the tasks is finished. -/
def halfway : History :=
  [(.origin, .event (.resources (view 2))), (.origin, .event (.running (twin 0 0))),
    (.origin, .event (.running (twin 1 0))),
    (later, .event (.resources ((view 2).addNode "spare" 2 1 1))),
    (later, .event (.finished (twin 0 0) none none))]

/-- The other task is slow: its node is blocked, and it gets one more attempt on the spare node. At
the next tick it is still slow, but has as many attempts as it may have. -/
def straggling : History := halfway ++ [(latest, .tick), (afterwards, .tick)]

/-- The sample job can be submitted; what holds of its scheduler as `P` can be evaluated. -/
theorem exists_scheduler {P : Scheduler → Bool}
    (h : (Scheduler.submit config job { accepts } .origin).toOption.any P = true) :
    ∃ s, Scheduler.submit config job { accepts } .origin = .ok s ∧ P s = true :=
  Scheduler.exists_of_submit h

/-- The job of `twins`, whose slow tasks get further attempts, can be submitted; what holds of its
scheduler as `P` can be evaluated. -/
theorem exists_watchful {P : Scheduler → Bool}
    (h : (Scheduler.submit watchful twins .willing .origin).toOption.any P = true) :
    ∃ s, Scheduler.submit watchful twins .willing .origin = .ok s ∧ P s = true :=
  Scheduler.exists_of_submit h

end AdaptiveBatch.Sample
