import AdaptiveBatch.Proofs.Scheduler.Agreement
import AdaptiveBatch.Proofs.Scheduler.Completion
import AdaptiveBatch.Proofs.Scheduler.Course

/-! # Restarts that are asked for

While a restart is asked for, the controller keeps the changes that it waits for, and vertices that
finish meanwhile leave them. Outside, the request was returned by the call that has asked for the
restart, and it speaks about these vertices still. The two belong together: nothing else is returned
until the restart is carried out, and the call that has asked for it was neither refused nor
abandoned. A refusal would have made the job fail. An abandoned call is where a program stops, so
that nobody would have received the request.

* **`Scheduling.Concludes`** — a call that is made in a given state returns or is abandoned, unless
  the job has failed;
* **`Scheduler.completes`** — no call of a history is abandoned;
* **`Scheduler.Outstanding`** — the changes that are waited for, seen from those that were asked
  for;
* **`Scheduler.awaited_run`** — the pending request is the last one that was returned, but for the
  vertices that have finished. -/

namespace AdaptiveBatch

namespace Scheduling

variable {α β : Type} {x : Scheduling α} {s t : Scheduler} {Q R : α → Scheduler → Prop}

/-! ## Calls that return unless the job fails -/

/-- Made in the state `s`, the call returns with `Q`, or it is abandoned, or the job has failed. -/
def Concludes (x : Scheduling α) (s : Scheduler) (Q : α → Scheduler → Prop) : Prop :=
  match x s with
  | .ok a t => Q a t
  | .error (.refused _) t => t.failure.isSome = true
  | .error (.abandoned _) _ => True

/-- A call `Concludes` with `Q` iff it has `Q` where it returns, and the job has failed where it is
refused. -/
theorem concludes_iff : x.Concludes s Q ↔ (∀ a t, x s = .ok a t → Q a t) ∧
    ∀ e t, x s = .error (.refused e) t → t.failure.isSome = true := by
  unfold Concludes
  cases x s with
  | ok a t => simp
  | error i t => cases i <;> simp

/-- What a call concludes with may be weakened where it returns. -/
theorem Concludes.mono (h : x.Concludes s Q) (hQ : ∀ a t, x s = .ok a t → Q a t → R a t) :
    x.Concludes s R := by
  obtain ⟨hok, hrefused⟩ := concludes_iff.1 h
  exact concludes_iff.2 ⟨fun a t heq => hQ a t heq (hok a t heq), hrefused⟩

/-- A call that is not refused for any reason `e` concludes with `Q` if it has `Q` where it
returns. -/
theorem Concludes.of_avoids (h : ∀ e, x.Avoids e s) (hQ : ∀ a t, x s = .ok a t → Q a t) :
    x.Concludes s Q :=
  concludes_iff.2 ⟨hQ, fun e t heq => absurd heq (h e t)⟩

/-- A call of two parts concludes if the first one concludes, and the second one does where the
first has returned. -/
theorem concludes_bind {f : α → Scheduling β} {Q : β → Scheduler → Prop} :
    (x >>= f).Concludes s Q ↔ x.Concludes s fun a t => (f a).Concludes t Q := by
  show (match EStateM.bind x f s with
    | .ok b t => Q b t
    | .error (.refused _) t => t.failure.isSome = true
    | .error (.abandoned _) _ => True) ↔ _
  unfold EStateM.bind Concludes
  cases x s with
  | ok a t => exact Iff.rfl
  | error i t => cases i <;> exact Iff.rfl

end Scheduling

namespace Scheduler

open Scheduling ExecutionGraph

variable {s t : Scheduler} {now : Instant} {c : Call} {request pending : ScaleRequest}
  {asked changes : ParallelismPlan}

/-- A look that is refused has made the job fail; otherwise `look` is known to have returned. -/
theorem concludes_look (h : s.Tracked) :
    (look now).Concludes s fun request? t => look now s = .ok request? t := by
  refine concludes_iff.2 ⟨fun _ _ => id, ?_⟩
  have hfails : (look now).Concludes s fun _ _ => True := by
    unfold look
    rw [concludes_bind]
    refine .of_avoids (fun _ => avoids_onController) fun action t ht => ?_
    obtain ⟨c, heval, rfl⟩ := exists_evaluated_of_eq_ok ht
    by_cases hshort : ∃ available required, action = .insufficient available required
    · obtain ⟨available, required, rfl⟩ := hshort
      rfl
    · exact .of_avoids (fun e => avoids_carryOut h heval fun available required heq =>
        absurd ⟨available, required, heq⟩ hshort) fun _ _ _ => trivial
  exact (concludes_iff.1 hfails).2

/-- What a call that looks has answered is what the look has, and only passes follow. -/
def Answers (now : Instant) (s : Scheduler) (c : Call) (request? : Option ScaleRequest)
    (u : Scheduler) : Prop :=
  ∃ t w, Opening now s c t ∧ look now t = .ok request? w ∧ PassSteps now w u

/-- A call that opens, looks at the resources, schedules, and does nothing else but to give up in
`finish`, concludes with what its look `Answers`. -/
theorem concludes_look_of_opening (finish : Scheduling Unit) (hs : s.Sound) (h : s.Tracked)
    (hopen : Opening now s c t) (hfinish : ∀ u, finish.Concludes u fun _ v => v = u) :
    (look now >>= fun request => schedule now >>= fun _ => finish >>= fun _ =>
      pure request).Concludes t (Answers now s c) := by
  rw [concludes_bind]
  refine (concludes_look (hopen.tracked h)).mono fun request? w hlook _ => ?_
  have hsteps : Steps now t w := (Move.of_look hlook).steps (hopen.sound hs)
  have hw : w.Sound := hsteps.sound (hopen.sound hs)
  have hadmitted : w.Admitted := (hopen.tracked h).admitted.sameJob hsteps.sameJob
  rw [concludes_bind]
  refine .of_avoids (fun _ => avoids_schedule hw hadmitted) fun _ u hu => ?_
  have hpass : PassSteps now w u := final_of_eq_ok hu ▸ passSteps_schedule hw
  rw [concludes_bind]
  refine (hfinish u).mono fun _ v _ hv => ?_
  subst hv
  exact ⟨t, w, hopen, hlook, hpass⟩

/-- Checking the slot requests changes nothing, or the job has failed. -/
theorem concludes_checkSlotRequests :
    (checkSlotRequests now).Concludes s fun _ t => t = s := by
  unfold Concludes
  rw [checkSlotRequests_eq]
  cases s.expired? now <;> rfl

/-- A call that looks and returns what it finds concludes with what its look `Answers`. -/
theorem concludes_perform (hs : s.Sound) (h : s.Tracked) (hlive : s.status.isTerminal = false)
    (now : Instant) (hc : c.Consults) : (c.perform now).Concludes s (Answers now s c) := by
  rcases hc with rfl | ⟨view, rfl⟩
  · show (if s.status.isTerminal = true then pure none else _ :
      Scheduling (Option ScaleRequest)).Concludes s _
    rw [hlive, if_neg Bool.false_ne_true]
    exact concludes_look_of_opening (checkSlotRequests now) hs h (.nothing rfl)
      fun _ => concludes_checkSlotRequests
  · show (if s.status.isTerminal = true then pure none else _ :
      Scheduling (Option ScaleRequest)).Concludes s _
    rw [hlive, if_neg Bool.false_ne_true]
    exact concludes_look_of_opening (t := s.viewing view) (pure ()) hs h .resources fun _ => rfl

/-! ## Abandoned calls -/

/-- Whether a call leaves the range of a quantity, so that it is abandoned. -/
def abandons (s : Scheduler) (now : Instant) (c : Call) : Bool :=
  match c.perform now s with
  | .error (.abandoned _) _ => true
  | _ => false

/-- Whether no call is abandoned. -/
def completes (s : Scheduler) : History → Bool
  | [] => true
  | (now, c) :: rest => !s.abandons now c && (s.after now c).completes rest

/-- A longer history completes iff both of its parts do, the `rest` from where the first one
leads. -/
theorem completes_append (s : Scheduler) (before rest : History) :
    s.completes (before ++ rest) = (s.completes before && (s.run before).completes rest) := by
  induction before generalizing s with
  | nil => rfl
  | cons entry before ih =>
    show (_ && (s.after entry.1 entry.2).completes (before ++ rest)) = _
    rw [ih, ← Bool.and_assoc]
    rfl

/-- The look behind the answer of a call that asks for one: if the call is neither abandoned nor
ends in a failure, its answer is one that the look `Answers`. -/
theorem answers_of_completes (hs : s.Sound) (h : s.Tracked) (hlive : s.status.isTerminal = false)
    (hc : c.Consults) (hcompletes : s.abandons now c = false)
    (hunfailed : (s.after now c).failure.isSome = false) :
    Answers now s c (s.answer now c) (s.after now c) := by
  have hconcludes := concludes_perform hs h hlive now hc
  unfold Concludes at hconcludes
  unfold abandons at hcompletes
  unfold after final at hunfailed ⊢
  unfold answer
  cases hperform : c.perform now s with
  | ok request? u =>
    rw [hperform] at hconcludes
    exact hconcludes
  | error i u =>
    rw [hperform] at hconcludes hcompletes hunfailed
    cases i with
    | refused e => exact absurd hconcludes (Bool.eq_false_iff.1 hunfailed)
    | abandoned o => cases hcompletes

/-- A call that does not look, `c.looks = false`, has nothing to answer. -/
theorem answer_eq_none (hc : c.looks = false) : s.answer now c = none := by
  have hnone {α : Type} {x : Scheduling α} (hx : c.perform now = x >>= fun _ => pure none) :
      s.answer now c = none := by
    unfold answer
    rw [hx]
    simp only [bind, EStateM.bind]
    cases x s <;> rfl
  cases c with
  | tick => exact hnone rfl
  | poll => cases hc
  | event e =>
    cases e with
    | resources | scaled => cases hc
    | running | progress | finished | failed => exact hnone rfl

/-! ## Outstanding changes -/

/-- The changes that are waited for are those that were asked for, except of the vertices that have
finished since; all of them were asked for after the vertices have started. -/
structure Outstanding (s : Scheduler) (asked changes : ParallelismPlan) : Prop where
  /-- Vertices for which a change was asked have started. -/
  started : ∀ (vertex : VertexId) (p : Nat), asked[vertex]? = some p →
    (s.graph.get? vertex).isSome = true
  /-- Those that have finished leave the changes. -/
  changes_eq : ∀ vertex : VertexId, changes[vertex]? =
    if s.graph.isFinished vertex = true then none else asked[vertex]?

/-- Changes stay outstanding as long as vertices that have started stay so and no vertex
finishes. -/
theorem Outstanding.of_retains (h : s.Outstanding asked changes)
    (hgraph : s.graph.Retains t.graph)
    (hfinished : ∀ vertex, t.graph.isFinished vertex = s.graph.isFinished vertex) :
    t.Outstanding asked changes := by
  refine ⟨fun vertex p hp => hgraph.started vertex (h.started vertex p hp), fun vertex => ?_⟩
  rw [hfinished]
  exact h.changes_eq vertex

/-- Steps finish no vertex, so changes stay outstanding. -/
theorem Steps.outstanding (hsteps : Steps now s t) (h : s.Outstanding asked changes) :
    t.Outstanding asked changes :=
  hsteps.keeps (J := fun t => t.Outstanding asked changes)
    (fun _ _ hstep ht => ht.of_retains hstep.retains hstep.isFinished_eq) h

/-- A look asks for changes of vertices that have started and not finished, so they are
`Outstanding` just as they are asked for. -/
theorem outstanding_of_evaluated {controller : RescaleController} (h : s.Tracked)
    (heval : s.controller.Evaluated now (.scale request) controller) :
    controller.phase = .evaluating request ∧ s.Outstanding request.plan request.plan := by
  cases heval with
  | scale running =>
    have hexecuting : s.isExecuting = true := by rw [isExecuting, running]
    have hunfinished {vertex : VertexId} {p : Nat} (hp : s.controller.changes[vertex]? = some p) :
        (s.graph.get? vertex).isSome = true ∧ (s.graph.unfinished? vertex).isSome = true := by
      obtain ⟨r, -, hr, -⟩ := RescaleController.getElem?_changes_eq_some_iff.1 hp
      have hrequired : (s.controller.requirements[vertex]?).isSome = true := by rw [hr]; rfl
      have hstarted := h.started hexecuting vertex hrequired
      exact ⟨hstarted, (h.unfinished_iff vertex hstarted).2 hrequired⟩
    refine ⟨rfl, fun vertex p hp => (hunfinished hp).1, fun vertex => ?_⟩
    cases hp : s.controller.changes[vertex]? with
    | none => rw [ite_self]
    | some p =>
      rw [isFinished_of_unfinished? (hunfinished hp).2, if_neg Bool.false_ne_true]

/-- A win takes its vertex out of the changes when it finishes it; the others are still
`Outstanding`. -/
theorem outstanding_won {id : AttemptId} {inputBytes outputBytes : Option Nat}
    (hid : s.graph.Awaits id)
    (hphase : (s.won id inputBytes outputBytes now).controller.phase = .evaluating pending) :
    ∃ old, s.controller.phase = .evaluating old ∧ ∀ asked, s.Outstanding asked old.plan →
      (s.won id inputBytes outputBytes now).Outstanding asked pending.plan := by
  have hretains : s.graph.Retains (s.won id inputBytes outputBytes now).graph := by
    rw [graph_won.1]
    exact hid.retains
  have hother {vertex : VertexId} (hne : vertex ≠ id.vertex) :
      (s.won id inputBytes outputBytes now).graph.isFinished vertex =
        s.graph.isFinished vertex := by
    rw [graph_won.1]
    exact isFinished_win_of_ne hne
  have hopen := hid.isFinished_eq_false
  by_cases hend : (s.graph.win id inputBytes outputBytes now).isFinished id.vertex = true
  · have hcontroller : (s.won id inputBytes outputBytes now).controller =
        s.controller.untrack id.vertex := by rw [won, if_pos hend]; rfl
    rw [hcontroller] at hphase
    unfold RescaleController.untrack at hphase
    cases hold : s.controller.phase with
    | waiting | running | failed => rw [hold] at hphase; cases hphase
    | evaluating old =>
      rw [hold] at hphase
      cases hphase
      refine ⟨old, rfl, fun asked h =>
        ⟨fun vertex p hp => hretains.started vertex (h.started vertex p hp), fun vertex => ?_⟩⟩
      show (old.plan.erase id.vertex)[vertex]? = _
      rw [ParallelismPlan.getElem?_erase, h.changes_eq]
      by_cases heq : vertex = id.vertex
      · subst heq
        rw [if_pos rfl, if_pos (graph_won.1 ▸ hend)]
      · rw [if_neg (Ne.symm heq), hother heq]
  · have hcontroller : (s.won id inputBytes outputBytes now).controller = s.controller := by
      rw [won, if_neg hend]; rfl
    refine ⟨pending, hcontroller ▸ hphase, fun asked h => h.of_retains hretains fun vertex => ?_⟩
    by_cases heq : vertex = id.vertex
    · rw [heq, hopen, graph_won.1, Bool.eq_false_iff.2 hend]
    · exact hother heq

/-- No opening asks for changes; only the end of a vertex takes any back, as long as the restart is
not carried out, so they stay `Outstanding`. -/
theorem Opening.outstanding (hopen : Opening now s c t)
    (hc : ∀ request, c ≠ .event (.scaled request))
    (hphase : t.controller.phase = .evaluating pending) :
    ∃ old, s.controller.phase = .evaluating old ∧ ∀ asked, s.Outstanding asked old.plan →
      t.Outstanding asked pending.plan := by
  cases hopen with
  | nothing | resources | tick =>
    exact ⟨pending, hphase, fun _ h => ⟨h.started, h.changes_eq⟩⟩
  | running awaits | progress awaits | failed awaits =>
    exact ⟨pending, hphase, fun _ h =>
      h.of_retains awaits.retains sameSizes_modifyAttempt.isFinished_eq⟩
  | finished awaits => exact outstanding_won awaits hphase
  | scaled => exact absurd rfl (hc _)

/-! ## Looks while a restart is asked for -/

/-- A look that answers `none` has not asked for the restart: if one is asked for after it, it has
changed nothing. -/
theorem eq_of_look_none (h : s.Tracked) (hlook : look now s = .ok none t)
    (hphase : t.controller.phase = .evaluating pending) : t = s := by
  have hnone : (look now).Ensures s (fun request? t => request? = none →
      t.controller.phase = .evaluating pending → t = s) fun _ => True := by
    unfold look
    rw [ensures_bind, ensures_onController]
    refine ⟨?_, fun _ _ => trivial⟩
    intro action c hc
    have heval := RescaleController.evaluate_eq_ok hc
    cases action with
    | idle =>
      intro _ hphase
      cases heval with
      | idle => rfl
      | wait => cases hphase
    | scale request =>
      intro heq
      cases heq
    | insufficient available required => trivial
    | start plan reduced =>
      -- The job runs with the plan, and no restart is asked for.
      have hruns : c.phase = .running now := by cases heval <;> rfl
      show ((plan.toList.forM (startPlanned now)) >>= fun _ => _).Ensures _ _ _
      rw [ensures_bind]
      refine (ensures_start h heval).mono ?_ fun _ => False.elim
      rintro _ u ⟨hu, -, -⟩ _ (hphase : u.controller.phase = _)
      rw [hu, hruns] at hphase
      cases hphase
  exact (ensures_of_eq_ok hlook).1 hnone rfl hphase

/-- A look at a job that waits asks for nothing: the phase is not `.evaluating` after it. -/
theorem phase_look_of_waiting (hwaiting : s.isExecuting = false) :
    ((look now).final s).controller.phase ≠ .evaluating pending := by
  intro hphase
  obtain ⟨action, heval⟩ := exists_evaluated_look s now
  generalize ((look now).final s).controller = c at heval hphase
  cases heval with
  | idle => rw [isExecuting, hphase] at hwaiting; cases hwaiting
  | scale running => rw [isExecuting, running] at hwaiting; cases hwaiting
  | wait | start | startReduced | insufficient => cases hphase

/-- Once a restart is carried out by `.scaled request`, none is asked for. -/
theorem phase_after_scaled (hs : s.Sound) (hpos : request.Positive)
    (hrescaling : s.status = .rescaling) :
    (s.after now (.event (.scaled request))).controller.phase ≠ .evaluating pending := by
  refine (ensures_final (P := fun t => t.controller.phase ≠ .evaluating pending)).1 ?_
  show (applyScale request now >>= _ : Scheduling (Option ScaleRequest)).Ensures s _ _
  unfold applyScale
  rw [ensures_bind, ensures_bind, ensures_get, hrescaling]
  have hopen : Opening now s (.event (.scaled request)) ((restartAll request now).final s) :=
    .scaled hrescaling
  have hwaiting : ((restartAll request now).final s).isExecuting = false :=
    isExecuting_restartAll hpos hrescaling
  refine ensures_bind_of_final (P := fun t => t.Sound ∧ t.isExecuting = false)
    ⟨hopen.sound hs, hwaiting⟩ ?_ ?_
  · rintro _ t - ⟨ht, hwaiting⟩
    refine ensures_bind_of_final
      (P := fun w => w.Sound ∧ w.controller.phase ≠ .evaluating pending)
      ⟨ht.look, phase_look_of_waiting hwaiting⟩ ?_ fun w hw => hw.2
    rintro _ w - ⟨hw, hphase⟩
    have hstay {u : Scheduler} (hu : Continues now w u) :
        u.controller.phase ≠ .evaluating pending :=
      hu.course.phase_eq ▸ hphase
    exact (ensures_schedule_continues hw).mono (fun _ _ => hstay) fun _ => hstay
  · rintro t ⟨-, hwaiting⟩ hphase
    rw [isExecuting, hphase] at hwaiting
    cases hwaiting

/-- A request that is not awaited, as the job is not in `.rescaling`, is not carried out and changes
nothing. -/
theorem applyScale_of_status_ne (h : s.status ≠ .rescaling) (request : ScaleRequest)
    (now : Instant) : applyScale request now s = .ok () s := by
  unfold applyScale
  rw [get_bind_apply, bne_iff_ne.2 h]
  rfl

/-- A call `.scaled request` leaves a job as it is that is not in `.rescaling`. -/
theorem after_scaled_of_status_ne (h : s.status ≠ .rescaling) :
    s.after now (.event (.scaled request)) = s := by
  refine final_of_eq_ok (a := none) ?_
  show EStateM.bind (applyScale request now) _ s = _
  rw [EStateM.bind, applyScale_of_status_ne h]
  rfl

/-- After a call `.scaled request` the job is not in `.rescaling`, whether or not it was before. -/
theorem status_after_scaled (hs : s.Sound) (hpos : request.Positive) :
    (s.after now (.event (.scaled request))).status ≠ .rescaling := by
  by_cases hrescaling : s.status = .rescaling
  · intro heq
    obtain ⟨pending, hphase⟩ := phase_of_rescaling heq
    exact phase_after_scaled hs hpos hrescaling hphase
  · rw [after_scaled_of_status_ne hrescaling]
    exact hrescaling

/-! ## The last request -/

/-- While a restart is asked for, the last request that was returned has asked for it. -/
def Awaited (s : Scheduler) (known : List ScaleRequest) : Prop :=
  ∀ pending, s.status = .rescaling → s.controller.phase = .evaluating pending →
    ∃ request, known.getLast? = some request ∧ s.Outstanding request.plan pending.plan

/-- A job of which a restart is asked for, and which has not ended, is in `.rescaling`. -/
theorem status_of_evaluating (hphase : s.controller.phase = .evaluating pending)
    (hlive : s.status.isTerminal = false) : s.status = .rescaling := by
  unfold status at hlive ⊢
  split at hlive
  · cases hlive
  · next hfailure =>
    split at hlive
    · cases hlive
    · next hfinished => rw [if_neg hfailure, if_neg hfinished, hphase]

/-- A restart that is asked for after an opening was asked for by the last request, whose changes
are still `Outstanding`. -/
theorem Awaited.opening {known : List ScaleRequest} (h : s.Awaited known)
    (hlive : s.status.isTerminal = false) (hopen : Opening now s c t)
    (hc : ∀ request, c ≠ .event (.scaled request))
    (hphase : t.controller.phase = .evaluating pending) :
    ∃ request, known.getLast? = some request ∧ t.Outstanding request.plan pending.plan := by
  obtain ⟨old, hold, hkeeps⟩ := hopen.outstanding hc hphase
  obtain ⟨request, hlast, houtstanding⟩ := h old (status_of_evaluating hold hlive) hold
  exact ⟨request, hlast, hkeeps request.plan houtstanding⟩

/-- Every call that is not abandoned keeps `Awaited`, with the request that it returns as the last
one. -/
theorem Awaited.after {known : List ScaleRequest} (h : s.Awaited known) (hends : s.EndsCleanly)
    (htracked : s.Tracked) (hpos : ∀ request, c = .event (.scaled request) → request.Positive)
    (hcompletes : s.abandons now c = false) :
    (s.after now c).Awaited (known ++ (s.answer now c).toList) := by
  intro pending hstatus hphase
  have hlive : s.status.isTerminal = false := by
    rw [Bool.eq_false_iff]
    intro hended
    rw [after_of_ended hends.clean hended] at hstatus
    rw [hstatus] at hended
    cases hended
  rcases c.looks_cases with hasks | ⟨request, rfl⟩ | hlooks
  · have hc : ∀ request, c ≠ .event (.scaled request) := by
      rintro request rfl
      rcases hasks with hpoll | ⟨view, hview⟩
      · cases hpoll
      · cases hview
    have hunfailed : (s.after now c).failure.isSome = false := by
      rw [Bool.eq_false_iff]
      intro hfailure
      rw [status, if_pos hfailure] at hstatus
      cases hstatus
    obtain ⟨t, w, hopen, hlook, hpass⟩ :=
      answers_of_completes hends.sound htracked hlive hasks hcompletes hunfailed
    have ht := hopen.tracked htracked
    rw [hpass.sameCourse.phase_eq] at hphase
    cases hanswer : s.answer now c with
    | none =>
      rw [hanswer] at hlook
      obtain rfl := eq_of_look_none ht hlook hphase
      obtain ⟨request, hlast, houtstanding⟩ := h.opening hlive hopen hc hphase
      exact ⟨request, by simpa using hlast, hpass.steps.outstanding houtstanding⟩
    | some request =>
      -- The restart is asked for in this call.
      rw [hanswer] at hlook
      obtain ⟨controller, heval, rfl⟩ := look_eq_ok_some hlook
      obtain ⟨hasked, houtstanding⟩ := outstanding_of_evaluated ht heval
      obtain rfl : request = pending := RescalePhase.evaluating.inj (hasked.symm.trans hphase)
      exact ⟨request, by simp, hpass.steps.outstanding
        ⟨houtstanding.started, houtstanding.changes_eq⟩⟩
  · exact absurd hstatus (status_after_scaled hends.sound (hpos request rfl))
  · have hc : ∀ request, c ≠ .event (.scaled request) := by
      rintro request rfl
      cases hlooks
    obtain ⟨t, hopen, hsteps, hcourse⟩ := after_course_of_not_looks hends.sound hlooks now
    rw [hcourse.phase_eq] at hphase
    obtain ⟨request, hlast, houtstanding⟩ := h.opening hlive hopen hc hphase
    rw [answer_eq_none hlooks]
    exact ⟨request, by simpa using hlast, hsteps.outstanding houtstanding⟩

/-- After a faithful history without abandoned calls, the pending request is the last one that was
returned, but for the vertices that have finished since: `Awaited`. -/
theorem awaited_run {config : Config} {job : JobGraph} {backend : Backend} {start : Instant}
    (h : submit config job backend start = .ok s) (history : History)
    (hfaithful : s.Faithful history) (hcompletes : s.completes history = true) :
    (s.run history).Awaited (s.returned history) := by
  induction history using List.reverseRecOn with
  | nil =>
    intro pending hstatus
    obtain ⟨order, -, -, rfl⟩ := submit_eq_ok h
    cases hstatus
  | append_singleton before entry ih =>
    obtain ⟨now, c⟩ := entry
    rw [completes_append, Bool.and_eq_true_iff] at hcompletes
    obtain ⟨hbefore, hlast⟩ := hcompletes
    have hconsistent := consistent_run h before hfaithful.of_append
    have hknown : ∀ request, c = .event (.scaled request) → request ∈ s.returned before := by
      rintro request rfl
      exact hfaithful before now request [] rfl
    have hreturns : (s.run before).abandons now c = false := by simpa [completes] using hlast
    have hafter := (ih hfaithful.of_append hbefore).after ((EndsCleanly.of_submit h).run before)
      hconsistent.tracked (fun request heq => hconsistent.positive request (hknown request heq))
      hreturns
    rw [run_append, returned_append]
    simpa [run, returned] using hafter

end Scheduler

end AdaptiveBatch
