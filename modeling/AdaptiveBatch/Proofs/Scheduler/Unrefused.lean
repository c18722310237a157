import AdaptiveBatch.Proofs.Scheduler.Tracking

/-! # Calls that are not refused

A request that does not fit the execution is refused by it: it names a vertex, a task or an attempt
that never existed, or asks for no tasks. What the scheduler does on its own always fits. The passes
start vertices whose bounds were checked when the job was submitted, so they are never refused, and
a look starts the vertices of a plan in which every vertex has tasks, so it is refused only when the
slots do not suffice.

* **`Scheduling.Avoids`** — a call that is made in a given state is not refused with an error, with
  rules for the ways of building calls;
* **`Scheduler.avoids_schedule`**, **`Scheduler.avoids_look`** — passes and looks;
* **`Scheduling.refused_of_bind`**, **`Scheduling.refused_rest_of_bind`** — what a refused call has
  failed at. -/

namespace AdaptiveBatch

namespace Scheduling

variable {α β : Type} {x : Scheduling α} {s t : Scheduler} {e : SchedulerError}
  {Q : α → Scheduler → Prop}

/-- The call that is made in the state `s` is not refused with the error `e`. -/
def Avoids (x : Scheduling α) (e : SchedulerError) (s : Scheduler) : Prop :=
  ∀ t, x s ≠ .error (.refused e) t

/-- A call that always returns, as nothing else is ensured of its early ends, is not refused. -/
theorem Ensures.avoids (h : x.Ensures s Q fun _ => False) : x.Avoids e s := by
  intro t heq
  unfold Ensures at h
  rw [heq] at h
  exact h

/-- A call that only returns `a` is not refused. -/
theorem avoids_pure (a : α) (s : Scheduler) : (pure a : Scheduling α).Avoids e s :=
  Ensures.avoids (Q := fun _ _ => True) trivial

/-- Changing the state by `f` is not refused. -/
theorem avoids_modify (f : Scheduler → Scheduler) (s : Scheduler) :
    (modify f : Scheduling Unit).Avoids e s :=
  Ensures.avoids (Q := fun _ _ => True) trivial

/-- What leaves the range of a quantity is abandoned, not refused: `checked c` is refused for no
error. -/
theorem avoids_checked (c : Checked α) (s : Scheduler) : (checked c).Avoids e s := by
  cases c with
  | ok a => exact avoids_pure a s
  | error o =>
    intro t heq
    obtain ⟨hi, -⟩ := EStateM.Result.error.inj heq
    exact Interruption.noConfusion hi

/-- A call that ends the job with `cause` is not refused for another error `e`. -/
theorem avoids_giveUp {cause : SchedulerError} (h : cause ≠ e) (now : Instant) (s : Scheduler) :
    (giveUp cause now : Scheduling α).Avoids e s := by
  intro t heq
  obtain ⟨hi, -⟩ := EStateM.Result.error.inj heq
  exact h (Interruption.refused.inj hi)

/-- A call of two parts is not refused iff the first one is not, nor the second one where the first
has returned. -/
theorem avoids_bind {f : α → Scheduling β} :
    (x >>= f).Avoids e s ↔ x.Avoids e s ∧ ∀ a t, x s = .ok a t → (f a).Avoids e t := by
  show (∀ t, EStateM.bind x f s ≠ .error (.refused e) t) ↔ _
  unfold EStateM.bind Avoids
  cases x s <;> simp

/-- A call that first reads the state is not refused iff what it goes on with is not. -/
theorem avoids_get_bind {f : Scheduler → Scheduling β} :
    (get >>= f : Scheduling β).Avoids e s ↔ (f s).Avoids e s := Iff.rfl

/-- A call that first changes the state by `g` is not refused iff what follows is not in the changed
state. -/
theorem avoids_modify_bind {g : Scheduler → Scheduler} {f : Unit → Scheduling β} :
    (modify g >>= f : Scheduling β).Avoids e s ↔ (f ()).Avoids e (g s) := Iff.rfl

/-- A computation that is not abandoned has the value `a` and leaves the state. -/
theorem checked_eq_ok {c : Checked α} {a : α} (h : checked c s = .ok a t) : c = .ok a ∧ s = t := by
  cases c with
  | ok b => cases h; exact ⟨rfl, rfl⟩
  | error o => cases h

/-- An operation that succeeds with `a` and `g` is not refused, if what follows it, `k a`, is
not. -/
theorem avoids_onGraph_bind {f : ExecutionGraph → Except ExecutionError (α × ExecutionGraph)}
    {a : α} {g : ExecutionGraph} {k : α → Scheduling β} (h : f s.graph = .ok (a, g)) :
    (onGraph f >>= k).Avoids e s ↔ (k a).Avoids e { s with graph := g } := by
  have hok : onGraph f s = .ok a { s with graph := g } :=
    eq_ok_iff.2 ((ensures_onGraph_of_ok h).2 ⟨rfl, rfl⟩)
  rw [avoids_bind]
  constructor
  · intro havoids
    exact havoids.2 a _ hok
  · intro havoids
    refine ⟨fun t heq => ?_, fun b t heq => ?_⟩
    · rw [hok] at heq
      cases heq
    · rw [hok] at heq
      cases heq
      exact havoids

/-- A call on the controller is abandoned or returns, but is not refused. -/
theorem avoids_onController
    {f : RescaleController → Checked (RescaleAction × RescaleController)} :
    (onController f).Avoids e s := by
  unfold onController
  rw [avoids_get_bind, avoids_bind]
  refine ⟨avoids_checked _ s, ?_⟩
  intro r t _
  exact (avoids_modify_bind (f := fun _ => pure r.1)).2 (avoids_pure r.1 _)

/-- A loop `l.forM f` is not refused if no call of it is, in the states that it goes through, those
with `J`. -/
theorem Avoids.forM {f : β → Scheduling Unit} {J : Scheduler → Prop}
    (avoids : ∀ b t, J t → (f b).Avoids e t)
    (keep : ∀ b t u, J t → f b t = .ok () u → J u) :
    ∀ (l : List β) (s : Scheduler), J s → (l.forM f).Avoids e s
  | [], s, _ => avoids_pure () s
  | b :: rest, s, h => by
    show (f b >>= fun _ => rest.forM f).Avoids e s
    rw [avoids_bind]
    exact ⟨avoids b s h, fun _ t ht => Avoids.forM avoids keep rest t (keep b s t h ht)⟩

/-- A call `x >>= f` that is refused has failed at its first part, if the rest is not refused. -/
theorem refused_of_bind {f : α → Scheduling β}
    (hrest : ∀ a t, x s = .ok a t → (f a).Avoids e t)
    (h : (x >>= f) s = .error (.refused e) t) : x s = .error (.refused e) t := by
  have hbind : EStateM.bind x f s = .error (.refused e) t := h
  unfold EStateM.bind at hbind
  cases hx : x s with
  | ok a u =>
    rw [hx] at hbind
    exact absurd hbind (hrest a u hx t)
  | error i u =>
    rw [hx] at hbind
    cases hbind
    rfl

/-- A call `x >>= f` that is refused has failed at the rest, if its first part is not refused. -/
theorem refused_rest_of_bind {f : α → Scheduling β} (hfirst : x.Avoids e s)
    (h : (x >>= f) s = .error (.refused e) t) :
    ∃ a u, x s = .ok a u ∧ f a u = .error (.refused e) t := by
  have hbind : EStateM.bind x f s = .error (.refused e) t := h
  unfold EStateM.bind at hbind
  cases hx : x s with
  | ok a u =>
    rw [hx] at hbind
    exact ⟨a, u, rfl, hbind⟩
  | error i u =>
    rw [hx] at hbind
    cases hbind
    exact absurd hx (hfirst t)

end Scheduling

namespace Scheduler

open Scheduling ExecutionGraph

variable {s t : Scheduler} {now : Instant} {e : SchedulerError}

/-! ## Passes -/

/-- Any number of steps change neither the settings nor the job. -/
theorem Steps.sameJob (h : Steps now s t) : s.SameJob t :=
  h.keeps (J := s.SameJob) (fun _ _ hstep ht => ht.trans hstep.sameJob) (SameJob.refl s)

/-- A vertex that the settings admit is decided to run as at least one task. -/
theorem Admitted.decideWithin_ne_zero {v : JobVertex} {id : VertexId} (h : s.Admitted)
    (hv : s.job.get? id = some v) (inputs : List InputStatistics) :
    s.sizing.decideWithin v inputs (some s.view) ≠ 0 := by
  have hvalid := admitted_get? h hv
  have hle := Sizing.min_le_decideWithin hvalid inputs s.view
  have hmin := (Sizing.requirement_valid hvalid inputs).one_le_min
  omega

/-- Starting a vertex of an admitted job is not refused: it would not run without tasks. -/
theorem avoids_startVertex (h : s.Admitted) (id : VertexId) : (startVertex now id).Avoids e s := by
  unfold startVertex
  rw [avoids_get_bind]
  cases hv : s.job.get? id with
  | none => exact avoids_pure () s
  | some v =>
    show (checked (s.inputStatistics id) >>= _).Avoids e s
    rw [avoids_bind]
    refine ⟨avoids_checked _ s, ?_⟩
    intro inputs t ht
    obtain ⟨-, rfl⟩ := checked_eq_ok ht
    -- An admitted vertex gets a task, so its generation starts.
    have hpos := h.decideWithin_ne_zero hv inputs
    exact (avoids_onGraph_bind ((startGeneration_eq _).trans (if_neg hpos))).2 (avoids_modify _ _)

/-- Starting the ready vertices of an admitted job is not refused. -/
theorem avoids_startReady (h : s.Admitted) : (startReady now).Avoids e s := by
  unfold startReady
  rw [avoids_get_bind, avoids_bind]
  refine ⟨Avoids.forM (J := Admitted) (fun id t ht => avoids_startVertex ht id) ?_ _ s h,
    fun _ t _ => avoids_pure _ t⟩
  intro id t u ht hu
  have hkeep : (startVertex now id).Ensures t (fun _ => Admitted) fun _ => True :=
    ensures_startVertex (fun _ => ht) (fun _ _ _ => trivial) fun _ _ _ _ _ => ht
  exact (ensures_of_eq_ok hu).1 hkeep

/-- However many passes are made, none of them is refused. -/
theorem avoids_passes : ∀ (limit : Nat) (s : Scheduler), s.Sound → s.Admitted →
    s.isExecuting = true → s.status.isTerminal = false → (passes now limit).Avoids e s
  | 0, s, _, _, _, _ => avoids_pure () s
  | limit + 1, s, hs, h, hexecuting, hlive => by
    unfold passes
    rw [avoids_bind]
    -- Tasks are placed without a refusal, whatever comes of the attempts.
    have hplace : (placePending now).Ensures s (fun _ t => PassSteps now s t) fun _ => False :=
      (ensures_placePending hexecuting hlive hs.wellFormed).mono (fun _ _ ht => ht.1) fun _ ht => ht
    refine ⟨hplace.avoids, ?_⟩
    intro _ t ht
    have hpass := (ensures_of_eq_ok ht).1 hplace
    have hexecuting' := hpass.isExecuting_eq.trans hexecuting
    have hlive' : t.status.isTerminal = false := hpass.status_eq ▸ hlive
    have hsound := hpass.steps.sound hs
    have hadmitted := h.sameJob hpass.sameJob
    rw [avoids_bind]
    refine ⟨avoids_startReady hadmitted, ?_⟩
    intro n u hu
    obtain ⟨hstart, -⟩ :=
      (ensures_of_eq_ok hu).1 (ensures_startReady hexecuting' hlive' hsound.nodup_order)
    split
    · exact avoids_pure () u
    · exact avoids_passes limit u (hstart.steps.sound hsound) (hadmitted.sameJob hstart.sameJob)
        (hstart.isExecuting_eq.trans hexecuting') (hstart.status_eq ▸ hlive')

/-- The passes of `schedule` are never refused. -/
theorem avoids_schedule (hs : s.Sound) (h : s.Admitted) : (schedule now).Avoids e s := by
  unfold schedule
  rw [avoids_get_bind]
  split
  · exact avoids_pure () s
  · next hcond =>
    have hrun : s.status.isTerminal = false ∧ s.isExecuting = true := by simpa using hcond
    exact avoids_passes _ s hs h hrun.2 hrun.1

/-! ## Looks -/

/-- What the controller has decided is one of the cases of `Evaluated`. -/
theorem exists_evaluated_of_eq_ok {action : RescaleAction}
    (h : onController (·.evaluate now) s = .ok action t) :
    ∃ c, s.controller.Evaluated now action c ∧ t = { s with controller := c } := by
  have hlook : (onController (·.evaluate now)).Ensures s (fun action t =>
      ∃ c, s.controller.Evaluated now action c ∧ t = { s with controller := c })
      fun _ => True := by
    rw [ensures_onController]
    exact ⟨fun _ c hc => ⟨c, RescaleController.evaluate_eq_ok hc, rfl⟩, fun _ _ => trivial⟩
  exact (ensures_of_eq_ok h).1 hlook

/-- A decision is carried out without a refusal, unless it is `.insufficient` and `e` says so. -/
theorem avoids_carryOut {action : RescaleAction} {c : RescaleController} (h : s.Tracked)
    (heval : s.controller.Evaluated now action c)
    (he : ∀ available required, action = .insufficient available required →
      .insufficient available required ≠ e) :
    (carryOut now action).Avoids e { s with controller := c } := by
  cases action with
  | idle | scale => exact avoids_pure _ _
  | insufficient available required => exact avoids_giveUp (he available required rfl) now _
  | start plan reduced =>
    show ((plan.toList.forM (startPlanned now)) >>= fun _ => _).Avoids e _
    rw [avoids_bind]
    refine ⟨(ensures_start h heval).avoids, fun _ u _ => ?_⟩
    rw [avoids_modify_bind]
    exact avoids_pure _ _

/-- A look is refused only when the slots do not suffice, with `.insufficient`. -/
theorem avoids_look (h : s.Tracked)
    (he : ∀ available required, .insufficient available required ≠ e) : (look now).Avoids e s := by
  unfold look
  rw [avoids_bind]
  refine ⟨avoids_onController, ?_⟩
  intro action t ht
  obtain ⟨c, heval, rfl⟩ := exists_evaluated_of_eq_ok ht
  exact avoids_carryOut h heval fun available required _ => he available required

/-- A look together with what follows it, `k`, is refused only when the slots do not suffice, if `k`
is not. -/
theorem avoids_look_bind {α : Type} {k : Option ScaleRequest → Scheduling α} (hs : s.Sound)
    (h : s.Tracked) (he : ∀ available required, .insufficient available required ≠ e)
    (hnext : ∀ request? t, t.Sound → t.Admitted → (k request?).Avoids e t) :
    (look now >>= k).Avoids e s := by
  rw [avoids_bind]
  refine ⟨avoids_look h he, ?_⟩
  intro request? t ht
  have hlook : Steps now s t := (Move.of_look ht).steps hs
  exact hnext request? t (hlook.sound hs) (h.admitted.sameJob hlook.sameJob)

end Scheduler

end AdaptiveBatch
