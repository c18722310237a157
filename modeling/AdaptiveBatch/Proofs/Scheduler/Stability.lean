import AdaptiveBatch.Proofs.Rescale.Stability
import AdaptiveBatch.Proofs.Scheduler.Tracking

/-! # Restarts while the number of slots stays

A request for a restart makes the controller stable at the number of slots it was made with, and from
then on everything that happens keeps it so. Hence at most one restart is asked for while the number of
slots stays. A new job is stable at any number of slots, but it has none before the first view; until
then nothing can start.

* **`Scheduler.Offered`** — all views that are delivered have so many slots;
* **`Scheduler.Unserved`** — a job before its first view;
* **`Scheduler.Calm`** — the invariant under which no restart is asked for;
* **`Scheduler.requests_of_steady_slots`** — at most one further request, and none if the number of
  slots never changes. -/

namespace AdaptiveBatch.Scheduler

open Scheduling ExecutionGraph

variable {s t : Scheduler} {now : Instant} {n : Nat} {request : ScaleRequest}

/-- Every view that is delivered has, as far as the job uses it, so many slots. -/
def Offered (s : Scheduler) (n : Nat) (history : History) : Prop :=
  ∀ entry ∈ history, ∀ view, entry.2 = .event (.resources view) →
    (view.capped s.config.slots.maxSlots).slotCount = n

/-! ## Views -/

/-- Only a call `.resources view` changes the view of the job before its look, and then to the part
of `view` that the job may use. -/
theorem Opening.view_eq {c : Call} (h : Opening now s c t) : t.view = s.view ∨
    ∃ view, c = .event (.resources view) ∧ t.view = view.capped s.config.slots.maxSlots := by
  cases h with
  | nothing | running | progress | failed | tick => exact Or.inl rfl
  | finished =>
    refine Or.inl ?_
    unfold won
    split <;> rfl
  | @resources view => exact Or.inr ⟨view, rfl, rfl⟩
  | scaled =>
    refine Or.inl (restartAll_keeps (J := fun t => t.view = s.view) rfl
      (fun _ _ _ _ _ ht => ht) ?_)
    intro t ht
    show (t.controller.awaitRestart now).view = s.view
    unfold RescaleController.awaitRestart
    split <;> exact ht

/-! ## Stable controllers -/

/-- Openings keep the controller `Stable`: they start no vertex. -/
theorem Opening.stable {c : Call} (h : Opening now s c t) (hs : s.controller.Stable n) :
    t.controller.Stable n := by
  cases h with
  | nothing | running | progress | failed | tick => exact hs
  | finished =>
    unfold won
    split
    · exact hs.untrack _
    · exact hs
  | resources => exact hs.withView _
  | scaled =>
    exact restartAll_keeps (J := fun t => t.controller.Stable n) hs (fun _ _ _ _ _ ht => ht)
      fun _ ht => ht.awaitRestart now

/-- Steps keep the controller `Stable`: vertices start as large as the slots allow. -/
theorem Step.stable (h : Step now s t) (hs : s.Tracked) (hn : s.view.slotCount = n)
    (hstable : s.controller.Stable n) : t.controller.Stable n := by
  subst hn
  cases h with
  | place | giveUp | react | count => exact hstable
  | start executing live mem_order new ready vertex_eq inputs_eq pos =>
    apply hstable.track hs.coherent executing (hs.requirement_eq_none executing new)
    intro _
    exact Sizing.decideWithin_eq_achievable _ _ _ _
  | look =>
    obtain ⟨action, heval⟩ := exists_evaluated_look s now
    exact hstable.evaluated hs.coherent heval

/-! ## Before the first view -/

/-- Nothing has started, there are no slots, and some vertex needs one. -/
structure Unserved (s : Scheduler) : Prop where
  /-- Nothing has started. -/
  get?_eq_none : ∀ vertex, s.graph.get? vertex = none
  /-- There are no slots. -/
  slotCount_eq : s.view.slotCount = 0
  /-- The job does not run. -/
  not_executing : s.isExecuting = false
  /-- Some vertex needs a slot. -/
  exists_requirement : ∃ (vertex : VertexId) (r : Requirement),
    s.controller.requirements[vertex]? = some r

/-- In a job without slots no attempt is awaited. -/
theorem Unserved.not_awaits (h : s.Unserved) {id : AttemptId} : ¬s.graph.Awaits id := by
  intro hid
  obtain ⟨v, t, hv, -⟩ := hid.exists_task
  rw [h.get?_eq_none] at hv
  cases hv

/-- Only the controller and what has started matter for being `Unserved`. -/
theorem Unserved.of_sameSizes (h : s.Unserved) (hcontroller : t.controller = s.controller)
    (hsizes : s.graph.SameSizes t.graph) : t.Unserved := by
  refine ⟨?_, ?_, ?_, hcontroller ▸ h.exists_requirement⟩
  · intro vertex
    have hsome := (hsizes vertex).1
    rw [h.get?_eq_none] at hsome
    exact Option.isNone_iff_eq_none.1 (Option.isSome_eq_false_iff.1 hsome)
  · unfold view
    rw [hcontroller]
    exact h.slotCount_eq
  · rw [isExecuting_eq, hcontroller]
    exact h.not_executing

/-- A new job has no slots yet, and its sources need one, so it is `Unserved`. -/
theorem Unserved.of_submit {config : Config} {job : JobGraph} {backend : Backend}
    (h : submit config job backend now = .ok s) : s.Unserved := by
  obtain ⟨order, horder, -, rfl⟩ := submit_eq_ok h
  refine ⟨fun _ => rfl, rfl, rfl, ?_⟩
  obtain ⟨v, hv, hsource⟩ := JobGraph.exists_source horder
  exact ⟨v.id, exists_sourceRequirement hv hsource⟩

/-- Without slots, only a view brings the job further: a step leaves it `Unserved`. -/
theorem Step.unserved (h : Step now s t) (hs : s.Tracked) (hidle : s.Unserved)
    (hstable : s.controller.Stable n) : t.Unserved ∧ t.controller.Stable n := by
  have hstuck : s.isExecuting ≠ true := by
    rw [hidle.not_executing]
    exact Bool.false_ne_true
  cases h with
  | place executing => exact absurd executing hstuck
  | start executing => exact absurd executing hstuck
  | look =>
    -- There are no slots, so the look starts nothing.
    obtain ⟨action, heval, -, hrealized⟩ := ensures_final.1 (ensures_look hs now)
    obtain ⟨vertex, r, hr⟩ := hidle.exists_requirement
    obtain ⟨hempty, hexecuting, hkeeps⟩ :=
      heval.not_starts (n := n) hs.coherent hidle.not_executing hidle.slotCount_eq hr
    refine ⟨⟨?_, ?_, hexecuting, vertex, r, ?_⟩, hkeeps hstable⟩
    · intro other
      have hsome := hrealized.isSome_eq other
      rw [hempty, hidle.get?_eq_none] at hsome
      simpa using hsome
    · rw [view_look]
      exact hidle.slotCount_eq
    · rw [heval.frame.2.2]
      exact hr
  | giveUp e => exact ⟨hidle.of_sameSizes rfl (sameSizes_cancelEach _), hstable⟩
  | react | count => exact ⟨hidle.of_sameSizes rfl (SameSizes.refl _), hstable⟩

/-! ## Calm -/

/-- The controller is stable at the number of slots, unless there are none yet. -/
structure Calm (n : Nat) (s : Scheduler) : Prop where
  /-- The invariant behind the steps. -/
  sound : s.Sound
  /-- The controller and the execution speak about the same vertices. -/
  tracked : s.Tracked
  /-- The controller is stable. -/
  stable : s.controller.Stable n
  /-- The slots have come, or they are still awaited. -/
  slots : s.view.slotCount = n ∨ s.Unserved

/-- What comes before the look of a call keeps the job calm, if a view that it delivers has `n`
slots. -/
theorem Opening.calm {c : Call} (h : Opening now s c t) (hs : s.Calm n)
    (hview : ∀ view, c = .event (.resources view) →
      (view.capped s.config.slots.maxSlots).slotCount = n) : t.Calm n := by
  refine ⟨h.sound hs.sound, h.tracked hs.tracked, h.stable hs.stable, ?_⟩
  rcases h.view_eq with hsame | ⟨view, heq, hnew⟩
  · apply hs.slots.imp (fun hn => by rw [hsame, hn])
    intro hidle
    -- Before the first view no attempt is awaited, and no restart is pending.
    cases h with
    | nothing => exact hidle
    | running awaits | progress awaits | finished awaits | failed awaits =>
      exact absurd awaits hidle.not_awaits
    | @resources view => exact ⟨hidle.get?_eq_none, by rw [hsame, hidle.slotCount_eq],
        hidle.not_executing, hidle.exists_requirement⟩
    | scaled rescaling =>
      obtain ⟨pending, hphase⟩ := phase_of_rescaling rescaling
      have hstuck := hidle.not_executing
      rw [isExecuting, hphase] at hstuck
      cases hstuck
    | tick => exact hidle.of_sameSizes rfl (SameSizes.refl _)
  · exact Or.inl (by rw [hnew, hview view heq])

/-- A step of a call keeps the job calm. -/
theorem Step.calm (h : Step now s t) (hs : s.Calm n) : t.Calm n := by
  have hsound := h.sound hs.sound
  have htracked := h.tracked hs.tracked
  rcases hs.slots with hn | hidle
  · exact ⟨hsound, htracked, h.stable hs.tracked hn hs.stable, Or.inl (by rw [h.view_eq, hn])⟩
  · obtain ⟨hidle', hstable⟩ := h.unserved hs.tracked hidle hs.stable
    exact ⟨hsound, htracked, hstable, Or.inr hidle'⟩

/-- A call keeps the job calm, if a view that it delivers has `n` slots. -/
theorem Calm.after (hs : s.Calm n) (now : Instant) {c : Call}
    (hview : ∀ view, c = .event (.resources view) →
      (view.capped s.config.slots.maxSlots).slotCount = n) : (s.after now c).Calm n := by
  obtain ⟨t, hopen, hsteps⟩ := after_steps hs.sound now c
  exact hsteps.keeps (fun _ _ hstep hu => hstep.calm hu) (hopen.calm hs hview)

/-- A calm job asks for no restart, as long as it is offered `n` slots. -/
theorem Calm.answer (hs : s.Calm n) {c : Call}
    (hview : ∀ view, c = .event (.resources view) →
      (view.capped s.config.slots.maxSlots).slotCount = n) : s.answer now c = none := by
  rw [Option.eq_none_iff_forall_ne_some]
  intro request hanswer
  obtain ⟨t, w, hopen, hlook, -⟩ := answer_look hs.sound hanswer
  obtain ⟨controller, heval, -⟩ := look_eq_ok_some hlook
  have hcalm := hopen.calm hs hview
  rcases hcalm.slots with rfl | hidle
  · exact hcalm.stable.not_scale heval
  · -- A restart is asked for by a running job only.
    cases heval with
    | scale running changes due =>
      have hstuck := hidle.not_executing
      rw [isExecuting, running] at hstuck
      cases hstuck

/-! ## Histories -/

/-- What is offered after the first call of a history is offered in the rest of it. -/
theorem Offered.after {entry : Instant × Call} {rest : History} (h : s.Offered n (entry :: rest))
    (hs : s.Sound) : (s.after entry.1 entry.2).Offered n rest := by
  intro later hlater view heq
  rw [(sameJob_after hs entry.1 entry.2).1]
  exact h later (List.mem_cons_of_mem _ hlater) view heq

/-- As long as the number of slots stays `n`, a calm job asks for no restart: `s.returned history`
is empty. -/
theorem Calm.returned (hs : s.Calm n) {history : History} (h : s.Offered n history) :
    s.returned history = [] := by
  induction history generalizing s with
  | nil => rfl
  | cons entry rest ih =>
    have hview := h entry List.mem_cons_self
    rw [Scheduler.returned, hs.answer hview, ih (hs.after entry.1 hview) (h.after hs.sound)]
    rfl

/-- A request for a restart makes the job calm at the number of slots that it then has. -/
theorem calm_of_answer (hs : s.Sound) (ht : s.Tracked) {c : Call}
    (hn : (s.after now c).view.slotCount = n) (hanswer : s.answer now c = some request) :
    (s.after now c).Calm n := by
  obtain ⟨t, w, hopen, hlook, hsteps⟩ := answer_look hs hanswer
  obtain ⟨controller, heval, rfl⟩ := look_eq_ok_some hlook
  have hsound := hopen.sound hs
  have htracked := hopen.tracked ht
  have hstep : Step now t { t with controller } := by
    rw [← final_of_eq_ok hlook]
    exact .look
  have hslots : t.view.slotCount = n := by rw [← hn, hsteps.view_eq, hstep.view_eq]
  have hstable : controller.Stable n :=
    hslots ▸ RescaleController.stable_of_scale htracked.coherent heval
  have hcalm : ({ t with controller } : Scheduler).Calm n :=
    ⟨hstep.sound hsound, hstep.tracked htracked, hstable, Or.inl (by rw [hstep.view_eq, hslots])⟩
  exact hsteps.keeps (fun _ _ hstep hu => hstep.calm hu) hcalm

/-- The number of slots stays `n` if every view that is delivered has `n`. -/
theorem slotCount_after (hs : s.Sound) (hn : s.view.slotCount = n) (now : Instant) {c : Call}
    (hview : ∀ view, c = .event (.resources view) →
      (view.capped s.config.slots.maxSlots).slotCount = n) :
    (s.after now c).view.slotCount = n := by
  obtain ⟨t, hopen, hsteps⟩ := after_steps hs now c
  rw [hsteps.view_eq]
  rcases hopen.view_eq with hsame | ⟨view, heq, hnew⟩
  · rw [hsame, hn]
  · rw [hnew, hview view heq]

/-- As long as the number of slots stays `n`, at most one restart is asked for. -/
theorem length_returned_le_one (hs : s.Sound) (ht : s.Tracked) (hn : s.view.slotCount = n)
    {history : History} (h : s.Offered n history) : (s.returned history).length ≤ 1 := by
  induction history generalizing s with
  | nil => exact Nat.zero_le _
  | cons entry rest ih =>
    have hafter := slotCount_after hs hn entry.1 (h entry List.mem_cons_self)
    rw [Scheduler.returned]
    cases hanswer : s.answer entry.1 entry.2 with
    | none => exact ih (hs.after _ _) (ht.after hs _ _) hafter (h.after hs)
    | some request =>
      -- The request has made the job calm, so it is the last one.
      rw [(calm_of_answer hs ht hafter hanswer).returned (h.after hs)]
      exact Nat.le_refl 1

/-- From any point of any history from which the number of slots stays the same (`Offered`), at most
one further request for a restart is `returned`; and none is returned at all if every view that is
delivered to the job has the same number of slots. -/
theorem requests_of_steady_slots {config : Config} {job : JobGraph} {backend : Backend}
    {start : Instant} (h : submit config job backend start = .ok s) :
    (∀ before after n, (s.run before).view.slotCount = n → (s.run before).Offered n after →
      ((s.run before).returned after).length ≤ 1) ∧
      ∀ n history, s.Offered n history → s.returned history = [] := by
  have hsound : s.Sound := .of_submit h
  have htracked : s.Tracked := .of_submit h
  constructor
  · intro before after n hn hoffered
    have hboth := run_induction (J := fun t => t.Sound ∧ t.Tracked) ⟨hsound, htracked⟩
      (fun t now c ht => ⟨ht.1.after now c, ht.2.after ht.1 now c⟩) before
    exact length_returned_le_one hboth.1 hboth.2 hn hoffered
  · intro n history hoffered
    have hstable : s.controller.Stable n := by
      obtain ⟨order, -, -, rfl⟩ := submit_eq_ok h
      exact .ofRequirements _ _ n
    exact Calm.returned ⟨hsound, htracked, hstable, Or.inr (.of_submit h)⟩ hoffered

/-- In the run `Sample.growth` a restart is asked for when the second slot comes; no other one is
asked for on these slots, and none at all if the second slot does not come. -/
theorem requests_of_steady_slots_sample : ∃ s,
    submit Sample.config Sample.job { accepts := Sample.accepts } .origin = .ok s ∧
      s.returned Sample.growth = [Sample.request] ∧
      ((s.run Sample.growth).returned Sample.restart).length ≤ 1 ∧
      s.returned (Sample.growth.take 2) = [] := by
  obtain ⟨s, hs, heval⟩ := Sample.exists_scheduler
    (P := fun s => decide (s.returned Sample.growth = [Sample.request] ∧
      (s.run Sample.growth).view.slotCount = 2 ∧ s.config.slots.maxSlots = none))
    (by decide +kernel)
  obtain ⟨hreturned, hslots, hmax⟩ := of_decide_eq_true heval
  obtain ⟨hafter, hnever⟩ := requests_of_steady_slots hs
  refine ⟨s, hs, hreturned, hafter Sample.growth Sample.restart 2 hslots ?_,
    hnever 1 (Sample.growth.take 2) ?_⟩
  · intro entry hentry view heq
    rcases List.mem_cons.1 hentry with rfl | hentry
    · cases heq
    · obtain rfl := List.mem_singleton.1 hentry
      cases heq
  · intro entry hentry view heq
    rw [hmax]
    rcases List.mem_cons.1 hentry with rfl | hentry
    · cases heq
      rfl
    · obtain rfl := List.mem_singleton.1 hentry
      cases heq

end AdaptiveBatch.Scheduler
