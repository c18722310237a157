import AdaptiveBatch.Proofs.Scheduler.Exhaustion
import AdaptiveBatch.Proofs.Scheduler.OutputSums

/-! # Why calls are abandoned

Only three computations of a scheduler can leave the range of a quantity: the bytes of a producer
are added up when a vertex that consumes them starts, a look at the resources computes the end of a
timer, and a tick computes the end of a block. So passes are abandoned for a sum that does not fit,
and for nothing else; looks and the search for slow attempts are abandoned for a point in time
beyond the end of the clock, and for nothing else.

* **`Scheduling.Spares`** — a call that is never abandoned for a given reason, with rules for the
  ways of building calls;
* **`Scheduler.spares_schedule`**, **`Scheduler.spares_look`**, **`Scheduler.spares_speculate`** —
  passes, looks and the search for slow attempts. -/

namespace AdaptiveBatch

namespace Scheduling

variable {α β : Type} {x : Scheduling α} {s t : Scheduler} {o : Overflow}

/-- In whatever state it is made, the call is not abandoned for the reason `o`. -/
def Spares (o : Overflow) (x : Scheduling α) : Prop := ∀ s t, x s ≠ .error (.abandoned o) t

/-- A call that only returns `a` is not abandoned. -/
theorem spares_pure (a : α) : Spares o (pure a : Scheduling α) := by
  intro s t heq
  cases heq

/-- Reading the state is not abandoned. -/
theorem spares_get : Spares o (get : Scheduling Scheduler) := by
  intro s t heq
  cases heq

/-- Changing the state by `f` is not abandoned. -/
theorem spares_modify (f : Scheduler → Scheduler) : Spares o (modify f : Scheduling Unit) := by
  intro s t heq
  cases heq

/-- A call that is refused with `e` is not abandoned. -/
theorem spares_refuse (e : SchedulerError) : Spares o (refuse e : Scheduling α) := by
  intro s t heq
  cases heq

/-- A call that ends the job with `e` is refused, not abandoned. -/
theorem spares_giveUp (e : SchedulerError) (now : Instant) :
    Spares o (giveUp e now : Scheduling α) := by
  intro s t heq
  cases heq

/-- A computation `c` is abandoned only for its own error. -/
theorem spares_checked {c : Checked α} (h : c ≠ .error o) : Spares o (checked c) := by
  intro s t heq
  cases c with
  | ok a => cases heq
  | error o' =>
    cases heq
    exact h rfl

/-- One call after the other, `x >>= f`, is spared a reason if both are. -/
theorem Spares.bind {f : α → Scheduling β} (hx : Spares o x) (hf : ∀ a, Spares o (f a)) :
    Spares o (x >>= f) := by
  intro s t heq
  have hbind : EStateM.bind x f s = .error (.abandoned o) t := heq
  unfold EStateM.bind at hbind
  cases h : x s with
  | ok a u =>
    rw [h] at hbind
    exact hf a u t hbind
  | error i u =>
    rw [h] at hbind
    cases hbind
    exact hx s t h

/-- Operations on the execution are refused, never abandoned: `onGraph f` is spared every reason. -/
theorem spares_onGraph (f : ExecutionGraph → Except ExecutionError (α × ExecutionGraph)) :
    Spares o (onGraph f) := by
  refine spares_get.bind fun s => ?_
  cases f s.graph with
  | ok r => exact (spares_modify _).bind fun _ => spares_pure _
  | error e => exact spares_refuse _

/-- Calls for the elements of a list, made one after the other by `l.forM f`, are spared a reason if
each of them is. -/
theorem Spares.forM {f : β → Scheduling Unit} (h : ∀ b, Spares o (f b)) :
    ∀ l : List β, Spares o (l.forM f)
  | [] => spares_pure ()
  | b :: rest => (h b).bind fun _ => Spares.forM h rest

/-- Calls that pass on a value, made along a list by `l.foldlM f`, are spared a reason if each of
them is. -/
theorem Spares.foldlM {f : α → β → Scheduling α} (h : ∀ a b, Spares o (f a b)) :
    ∀ (l : List β) (a : α), Spares o (l.foldlM f a)
  | [], a => spares_pure a
  | b :: rest, a => by
    rw [List.foldlM_cons]
    exact (h a b).bind fun a => Spares.foldlM h rest a

/-- Calls whose results are collected, made along a list by `l.mapM f`, are spared a reason if each
of them is. -/
theorem Spares.mapM {f : β → Scheduling α} (h : ∀ b, Spares o (f b)) :
    ∀ l : List β, Spares o (l.mapM f)
  | [] => spares_pure []
  | b :: rest => by
    rw [List.mapM_cons]
    exact (h b).bind fun _ => (Spares.mapM h rest).bind fun _ => spares_pure _

/-- A call whose rest `f` spares a reason is abandoned for it exactly when its first part `x` is. -/
theorem bind_eq_abandoned_iff {f : α → Scheduling β} (hf : ∀ a, Spares o (f a)) :
    (x >>= f) s = .error (.abandoned o) t ↔ x s = .error (.abandoned o) t := by
  show EStateM.bind x f s = _ ↔ _
  unfold EStateM.bind
  cases h : x s with
  | ok a u =>
    constructor
    · intro heq
      exact absurd heq (hf a u t)
    · intro heq
      cases heq
  | error i u => simp

/-- A call whose first part `x` spares a reason is abandoned for it exactly when `x` returns and the
rest `f` is. -/
theorem bind_eq_abandoned_iff_of_spares {f : α → Scheduling β} (hx : Spares o x) :
    (x >>= f) s = .error (.abandoned o) t ↔
      ∃ a u, x s = .ok a u ∧ f a u = .error (.abandoned o) t := by
  show EStateM.bind x f s = _ ↔ _
  unfold EStateM.bind
  cases h : x s with
  | ok a u => simp
  | error i u =>
    constructor
    · intro heq
      cases heq
      exact absurd h (hx s t)
    · rintro ⟨a, v, heq, -⟩
      cases heq

/-- A computation is abandoned when `c` is an error, and the state is left as it is. -/
theorem checked_eq_abandoned_iff {c : Checked α} :
    checked c s = .error (.abandoned o) t ↔ c = .error o ∧ s = t := by
  cases c with
  | ok a => exact ⟨fun heq => (by cases heq), fun h => (by cases h.1)⟩
  | error o' =>
    constructor
    · intro heq
      cases heq
      exact ⟨rfl, rfl⟩
    · rintro ⟨heq, rfl⟩
      cases heq
      rfl

end Scheduling

namespace Scheduler

open Scheduling

variable {o : Overflow} {now : Instant}

/-! ## Attempts and generations -/

/-- Starting a vertex over is not abandoned. -/
theorem spares_restart (vertex : VertexId) (parallelism : Nat) :
    Spares o (restart vertex parallelism now) :=
  (spares_onGraph _).bind fun _ => spares_modify _

/-- Deploying an attempt is not abandoned, whether the backend accepts it or not. -/
theorem spares_deploy (vertex : VertexId) (subtask : Nat) (node : NodeId) (speculative : Bool) :
    Spares o (deploy vertex subtask node speculative now) := by
  have hassign : Spares o (assign vertex subtask node speculative now) :=
    (spares_onGraph _).bind fun _ => (spares_onGraph _).bind fun _ => spares_pure _
  refine hassign.bind fun id => spares_get.bind fun s => (spares_modify _).bind fun _ => ?_
  split
  · exact spares_pure _
  · exact (spares_onGraph _).bind fun _ => spares_pure _

/-! ## Passes -/

/-- Placing the pending tasks is not abandoned. -/
theorem spares_placePending : Spares o (placePending now) := by
  have hplaceTask (vertex : VertexId) (kept : Occupancy) (subtask : Nat) :
      Spares o (placeTask vertex now kept subtask) := by
    refine spares_get.bind fun s => ?_
    split
    · exact spares_pure _
    · refine (spares_deploy _ _ _ _).bind fun id? => ?_
      split <;> exact spares_pure _
  refine spares_get.bind fun s => Spares.bind (Spares.foldlM (fun all waiting => ?_) _ _) fun _ =>
    spares_pure _
  exact spares_get.bind fun s => (Spares.foldlM (hplaceTask _) _ _).bind fun _ => spares_pure _

/-- Starting a vertex is abandoned for a sum of its inputs that does not fit, `.add`, and for
nothing else. -/
theorem spares_startVertex (ho : o ≠ .add) (id : VertexId) : Spares o (startVertex now id) := by
  refine spares_get.bind fun s => ?_
  split
  · exact spares_pure _
  · have hsums : Spares o (checked (s.inputStatistics id)) :=
      spares_checked fun heq => ho (inputStatistics_eq_error_iff.1 heq).1
    refine hsums.bind fun inputs => ?_
    exact (spares_onGraph _).bind fun _ => spares_modify _

/-- However many passes are made, they are abandoned for `.add` and for nothing else. -/
theorem spares_passes (ho : o ≠ .add) : ∀ limit : Nat, Spares o (passes now limit)
  | 0 => spares_pure _
  | limit + 1 => by
    have hready : Spares o (startReady now) :=
      spares_get.bind fun s => (Spares.forM (spares_startVertex ho) _).bind fun _ => spares_pure _
    refine spares_placePending.bind fun _ => hready.bind fun n => ?_
    split
    · exact spares_pure _
    · exact spares_passes ho limit

/-- The passes of `schedule` are abandoned for a sum that does not fit, `.add`, and for nothing
else. -/
theorem spares_schedule (ho : o ≠ .add) : Spares o (schedule now) := by
  refine spares_get.bind fun s => ?_
  split
  · exact spares_pure _
  · exact spares_passes ho _

/-! ## Looks -/

/-- Carrying out what the controller has decided is not abandoned. -/
theorem spares_carryOut (action : RescaleAction) : Spares o (carryOut now action) := by
  cases action with
  | idle | scale => exact spares_pure _
  | insufficient => exact spares_giveUp _ _
  | start plan reduced =>
    refine (Spares.forM (fun planned => spares_get.bind fun s => ?_) _).bind fun _ =>
      (spares_modify _).bind fun _ => spares_pure _
    split
    · exact spares_restart _ _
    · exact spares_pure _

/-- A look is abandoned when `s.controller.evaluate` is; nothing has changed then. -/
theorem look_eq_abandoned_iff {s t : Scheduler} : look now s = .error (.abandoned o) t ↔
    s.controller.evaluate now = .error o ∧ s = t := by
  refine (bind_eq_abandoned_iff spares_carryOut).trans ?_
  unfold onController
  rw [get_bind_apply]
  refine (bind_eq_abandoned_iff fun r => ?_).trans checked_eq_abandoned_iff
  exact (spares_modify _).bind fun _ => spares_pure _

/-! ## Slow attempts -/

/-- Launching speculative attempts is not abandoned. -/
theorem spares_launches (launches : List Launch) : Spares o (launches.mapM (launch now)) := by
  refine Spares.mapM (fun l => (spares_deploy _ _ _ _).bind fun id? => ?_) launches
  dsimp only
  split
  · exact (spares_modify _).bind fun _ => spares_pure _
  · exact spares_pure _

/-- The search for slow attempts is abandoned when `s.speculation.react`, the reaction to them, is;
nothing has changed then. -/
theorem speculate_eq_abandoned_iff {s t : Scheduler} :
    speculate now s = .error (.abandoned o) t ↔
      s.speculation.react (s.config.slowAttempts s.graph now)
        { graph := s.graph, view := s.view, slow := s.slow, now } = .error o ∧ s = t := by
  unfold speculate
  rw [get_bind_apply]
  refine (bind_eq_abandoned_iff fun r => ?_).trans checked_eq_abandoned_iff
  exact (spares_modify _).bind fun _ => (spares_launches _).bind fun _ => spares_pure _

/-! ## A test for abandoned calls -/

/-- Whether a call was abandoned for a reason, in a state that passes a test. -/
def abandonedFor {α : Type} (o : Overflow) (P : Scheduler → Bool)
    (r : EStateM.Result Interruption Scheduler α) : Bool :=
  match r with
  | .error (.abandoned cause) t => decide (cause = o) && P t
  | _ => false

/-- A call for which `abandonedFor o P` tests positive was abandoned for `o`, in a state with
`P`. -/
theorem exists_of_abandonedFor {α : Type} {P : Scheduler → Bool}
    {r : EStateM.Result Interruption Scheduler α} (h : abandonedFor o P r = true) :
    ∃ t, r = .error (.abandoned o) t ∧ P t = true := by
  unfold abandonedFor at h
  split at h
  · next cause t =>
    rw [Bool.and_eq_true_iff] at h
    exact ⟨t, by rw [of_decide_eq_true h.1], h.2⟩
  · cases h

end Scheduler

end AdaptiveBatch
