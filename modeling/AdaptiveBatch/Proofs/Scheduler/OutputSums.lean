import AdaptiveBatch.Proofs.Scheduler.FinalInputs
import AdaptiveBatch.Scheduler.Summary

/-! # Sums of reported bytes

Every attempt that wins its task has reported how many bytes it has produced; the reports are taken
as they come. The bytes of a vertex are added up in 64 bits, without a cap. So a vertex whose
winners have reported more than that gives no sum, and everything that needs the sum is abandoned:
the statistics and the decision for its consumers, and the summary of the job. Nothing else can go
wrong with the bytes.

* **`VertexExecution.output`** — the bytes that the winners have reported, without a bound;
  **`Scheduler.Overfull`** — they do not fit into 64 bits;
* **`VertexExecution.finishedOutput_eq`**, **`VertexExecution.totalOutput?_eq`** — the sums of a
  vertex;
* **`Scheduler.inputStatistics_eq_error_iff`**, **`Scheduler.decideParallelism_eq_abandoned_iff`**,
  **`Scheduler.summary_eq_error_iff`** — what is computed from the sums. -/

namespace AdaptiveBatch

/-- What follows a computation and cannot fail, `pure (f a)`, does not matter to its failure. -/
theorem bind_pure_eq_error_iff {α β ε : Type} {x : Except ε α} {f : α → β} {e : ε} :
    (x >>= fun a => pure (f a)) = .error e ↔ x = .error e := by
  cases x <;> simp [bind, Except.bind, pure, Except.pure]

/-- A traversal whose steps fail in one way only, for `cause` and where `P` holds, fails exactly
when a step does. -/
theorem mapM_eq_error_iff {α β ε : Type} {f : α → Except ε β} {P : α → Prop} {cause : ε}
    (hf : ∀ a e, f a = .error e ↔ e = cause ∧ P a) {e : ε} :
    ∀ {l : List α}, l.mapM f = .error e ↔ e = cause ∧ ∃ a ∈ l, P a
  | [] => by simp [pure, Except.pure]
  | a :: rest => by
    rw [List.mapM_cons]
    cases ha : f a with
    | error e' =>
      obtain ⟨rfl, hp⟩ := (hf a e').1 ha
      constructor
      · intro heq
        cases heq
        exact ⟨rfl, a, List.mem_cons_self, hp⟩
      · rintro ⟨rfl, -⟩
        rfl
    | ok b =>
      have hnot : ¬P a := fun hp => by
        rw [(hf a cause).2 ⟨rfl, hp⟩] at ha
        cases ha
      show (rest.mapM f >>= fun bs => pure (b :: bs)) = .error e ↔ _
      rw [bind_pure_eq_error_iff, mapM_eq_error_iff hf]
      simp [hnot]

/-! ## Vertices -/

namespace VertexExecution

variable {v : VertexExecution}

/-- The bytes that the finished tasks have produced, without a bound. -/
def output (v : VertexExecution) : Nat := total (v.winners.map fun a => a.outputBytes.getD 0)

/-- The finished tasks are counted and their bytes added up, as `v.output`, or the sum is abandoned
for `.add`. -/
theorem finishedOutput_eq (v : VertexExecution) : v.finishedOutput =
    if v.output < Word.limit then .ok (v.winners.length, v.output) else .error .add := by
  unfold finishedOutput
  rw [Word.sum_eq]
  show (if v.output < Word.limit then _ else _ : Checked Nat) >>= _ = _
  split <;> rfl

/-- A finished vertex has the total `v.output`, or the sum is abandoned for `.add`; any other vertex
has none. -/
theorem totalOutput?_eq (v : VertexExecution) : v.totalOutput? =
    if v.isFinished = true then
      if v.output < Word.limit then .ok (some v.output) else .error .add
    else .ok none := by
  unfold totalOutput?
  rw [finishedOutput_eq]
  split
  · split <;> rfl
  · rfl

/-- The bytes of the finished tasks are abandoned iff they do not fit, `Word.limit ≤ v.output`. -/
theorem finishedOutput_eq_error_iff {o : Overflow} :
    v.finishedOutput = .error o ↔ o = .add ∧ Word.limit ≤ v.output := by
  rw [finishedOutput_eq]
  split
  · next hfits =>
    constructor
    · intro heq
      cases heq
    · rintro ⟨-, hle⟩
      exact absurd hfits (Nat.not_lt.2 hle)
  · next hover =>
    constructor
    · intro heq
      cases heq
      exact ⟨rfl, Nat.not_lt.1 hover⟩
    · rintro ⟨rfl, -⟩
      rfl

/-- The summary of a vertex is abandoned when its bytes do not fit, `Word.limit ≤ v.output`. -/
theorem summary_eq_error_iff {o : Overflow} :
    v.summary = .error o ↔ o = .add ∧ Word.limit ≤ v.output :=
  bind_pure_eq_error_iff.trans finishedOutput_eq_error_iff

end VertexExecution

/-! ## Jobs -/

namespace Scheduler

variable {s : Scheduler} {vertex : VertexId} {o : Overflow}

/-- The finished tasks of the vertex have reported more bytes than fit into 64 bits. -/
def Overfull (s : Scheduler) (vertex : VertexId) : Prop :=
  ∃ v, s.graph.get? vertex = some v ∧ Word.limit ≤ v.output

/-- What is known about an input is abandoned when its producer `e.source` is `Overfull`. -/
theorem statisticsOf_eq_error_iff {e : JobEdge} :
    s.statisticsOf e = .error o ↔ o = .add ∧ s.Overfull e.source := by
  unfold statisticsOf Overfull
  cases s.graph.get? e.source with
  | none => simp [pure, Except.pure]
  | some v =>
    simp only [VertexExecution.totalOutput?_eq, VertexExecution.finishedOutput_eq,
      Option.some.injEq, exists_eq_left']
    by_cases hfits : v.output < Word.limit
    · have hle : ¬Word.limit ≤ v.output := Nat.not_le.2 hfits
      simp only [hfits, hle, if_true, and_false, iff_false]
      split <;> exact fun heq => by cases heq
    · have hle : Word.limit ≤ v.output := Nat.not_lt.1 hfits
      simp only [hfits, hle, if_false, and_true]
      split <;> exact ⟨fun heq => by cases heq; rfl, fun heq => by cases heq; rfl⟩

/-- The statistics of a vertex are abandoned when one of its producers is `Overfull`. -/
theorem inputStatistics_eq_error_iff :
    s.inputStatistics vertex = .error o ↔
      o = .add ∧ ∃ e ∈ s.job.inputsOf vertex, s.Overfull e.source :=
  mapM_eq_error_iff fun _ _ => statisticsOf_eq_error_iff

/-- What is decided for a vertex is abandoned when one of its producers is `Overfull`, whatever
slots are `available`. -/
theorem decideParallelism_eq_abandoned_iff {v : JobVertex} (hv : s.job.get? vertex = some v)
    (available : Option ResourceView) :
    s.decideParallelism vertex available = .error (.abandoned o) ↔
      o = .add ∧ ∃ e ∈ s.job.inputsOf vertex, s.Overfull e.source := by
  rw [← inputStatistics_eq_error_iff]
  unfold decideParallelism
  rw [hv]
  refine bind_pure_eq_error_iff.trans ?_
  cases s.inputStatistics vertex <;> simp [Except.mapError]

/-- The summary is abandoned when a vertex of `s.order` is `Overfull`. -/
theorem summary_eq_error_iff :
    s.summary = .error o ↔ o = .add ∧ ∃ vertex ∈ s.order, s.Overfull vertex := by
  have hvertices : (s.order.filterMap s.graph.get?).mapM VertexExecution.summary = .error o ↔
      o = .add ∧ ∃ v ∈ s.order.filterMap s.graph.get?, Word.limit ≤ v.output :=
    mapM_eq_error_iff fun _ _ => VertexExecution.summary_eq_error_iff
  refine bind_pure_eq_error_iff.trans (hvertices.trans ?_)
  simp only [List.mem_filterMap, Overfull]
  refine and_congr_right fun _ => ⟨?_, ?_⟩
  · rintro ⟨v, ⟨id, hid, hv⟩, hle⟩
    exact ⟨id, hid, v, hv, hle⟩
  · rintro ⟨id, hid, v, hv, hle⟩
    exact ⟨v, ⟨id, hid, hv⟩, hle⟩

end Scheduler

end AdaptiveBatch
