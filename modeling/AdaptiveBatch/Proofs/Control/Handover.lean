import AdaptiveBatch.Control.Loop
import AdaptiveBatch.Proofs.Scheduler.Pending

/-! # Requests for restarts are handed over

The controller asks for a restart and then decides nothing more until it is carried out. Between the
two the request goes through several hands: the scheduler returns it from the call that has looked
at the resources, after it has scheduled and looked for tasks that have waited too long; the control
loop carries it out, unless it hands it out to somebody else. A request that went astray on this way
would stop all further rescaling.

A call that returns leaves the phase as its look has left it, and a look answers a request exactly
when it begins to ask for one. When the loop carries out the request, the job still runs, so the
restart is not ignored, and afterwards the job waits or runs. So no restart is asked for between two
iterations; this is also why a restart that is reported from outside without a request is ignored.

* **`Scheduler.Reports`** — a request is returned exactly when it became pending;
* **`Signal.ask`** — a signal, up to the request that it leads to;
* **`Iterates`** — one iteration of a loop that carries out restarts itself;
* **`ControlLoop.Between`** — a loop on a timetable between two of its turns;
* **`Scheduler.requests_handed_over`** — requests are returned and carried out. -/

namespace AdaptiveBatch

open Scheduling

namespace Scheduler

variable {s t u w : Scheduler} {now : Instant} {c : Call} {request : ScaleRequest}
  {request? : Option ScaleRequest}

/-! ## Requests that are returned -/

/-- No restart is asked for. -/
def Unasked (s : Scheduler) : Prop := ∀ pending, s.controller.phase ≠ .evaluating pending

/-- A call from one state to another reports a request exactly when it has begun to ask for that
restart. -/
def Reports (s : Scheduler) (request? : Option ScaleRequest) (u : Scheduler) : Prop :=
  ∀ request, request? = some request ↔ s.Unasked ∧ u.controller.phase = .evaluating request

/-- A look answers a request when the job is `Unasked`, and begins to ask for the restart: the phase
becomes `.evaluating request`. -/
theorem phase_of_look_some (h : look now s = .ok (some request) t) :
    s.Unasked ∧ t.controller.phase = .evaluating request := by
  obtain ⟨controller, heval, rfl⟩ := look_eq_ok_some h
  cases heval with
  | scale running =>
    refine ⟨fun pending hpending => ?_, rfl⟩
    rw [running] at hpending
    cases hpending

/-- What comes before the look of a call concerns the view only: the controller's `phase` and the
`status` stay. -/
theorem Opening.unmoved (h : Opening now s c t) (hc : c.Consults) :
    t.controller.phase = s.controller.phase ∧ t.status = s.status := by
  rcases hc with rfl | ⟨view, rfl⟩ <;> cases h <;> exact ⟨rfl, rfl⟩

/-- On a job whose status is terminal a call that asks for a look returns nothing and changes
nothing. -/
theorem perform_of_ended (hended : s.status.isTerminal = true) (hc : c.Consults) :
    c.perform now s = .ok none s := by
  have hnothing (x : Scheduling (Option ScaleRequest)) :
      (if s.status.isTerminal = true then pure none else x) s = .ok none s := by
    rw [if_pos hended]
    rfl
  rcases hc with rfl | ⟨view, rfl⟩ <;> exact hnothing _

/-- A call that has returned `request?` has answered what its look has. -/
theorem answers_of_eq_ok (hs : s.Sound) (h : s.Tracked) (hlive : s.status.isTerminal = false)
    (hc : c.Consults) (hcall : c.perform now s = .ok request? u) : Answers now s c request? u :=
  (concludes_iff.1 (concludes_perform hs h hlive now hc)).1 request? u hcall

/-- Every call that looks and returns reports its request, in the sense of `Reports`. -/
theorem reports_of_eq_ok (hs : s.Sound) (h : s.Tracked) (hc : c.Consults)
    (hcall : c.perform now s = .ok request? u) : s.Reports request? u := by
  intro request
  cases hlive : s.status.isTerminal with
  | true =>
    rw [perform_of_ended hlive hc] at hcall
    cases hcall
    refine ⟨fun heq => (by cases heq), ?_⟩
    rintro ⟨hunasked, hphase⟩
    exact absurd hphase (hunasked request)
  | false =>
    obtain ⟨t, w, hopen, hlook, hpass⟩ := answers_of_eq_ok hs h hlive hc hcall
    rw [hpass.sameCourse.phase_eq, Unasked, ← (hopen.unmoved hc).1]
    constructor
    · rintro rfl
      exact phase_of_look_some hlook
    · rintro ⟨hunasked, hphase⟩
      cases request? with
      | none =>
        -- A look without an answer would have found the restart asked for.
        rw [eq_of_look_none (hopen.tracked h) hlook hphase] at hphase
        exact absurd hphase (hunasked request)
      | some answered =>
        have hasked := (phase_of_look_some hlook).2
        rw [RescalePhase.evaluating.inj (hasked.symm.trans hphase)]

/-- A call that returns a request leaves the job in `.rescaling`, where it waits for the restart to
be carried out. -/
theorem status_of_returned (hs : s.Sound) (h : s.Tracked) (hc : c.Consults)
    (hcall : c.perform now s = .ok (some request) u) : u.status = .rescaling := by
  cases hlive : s.status.isTerminal with
  | true =>
    rw [perform_of_ended hlive hc] at hcall
    cases hcall
  | false =>
    obtain ⟨t, w, hopen, hlook, hpass⟩ := answers_of_eq_ok hs h hlive hc hcall
    have hphase := (phase_of_look_some hlook).2
    rw [← (hopen.unmoved hc).2] at hlive
    obtain ⟨controller, -, rfl⟩ := look_eq_ok_some hlook
    rw [hpass.status_eq]
    refine status_of_evaluating hphase (Bool.eq_false_iff.2 fun hended => ?_)
    -- The look has asked for a restart, and this ends no job.
    refine Bool.eq_false_iff.1 hlive (isTerminal_of hended rfl rfl ?_)
    intro available required hfailed
    rw [hphase] at hfailed
    cases hfailed

/-! ## Requests that are carried out -/

/-- What holds between two iterations of a loop that carries out restarts itself. -/
structure AtRest (s : Scheduler) : Prop where
  /-- The invariant behind the steps. -/
  sound : s.Sound
  /-- The controller and the execution speak about the same vertices. -/
  tracked : s.Tracked
  /-- No restart is asked for. -/
  unasked : s.Unasked

/-- Between two iterations the job is not in `.rescaling`: that would need a restart that is asked
for. -/
theorem AtRest.status_ne (h : s.AtRest) : s.status ≠ .rescaling := by
  intro hrescaling
  obtain ⟨pending, hphase⟩ := phase_of_rescaling hrescaling
  exact h.unasked pending hphase

/-- A call that does not look begins to ask for nothing, and a restart that nobody has asked for,
`.scaled request`, is not carried out; so the job stays `AtRest`. -/
theorem AtRest.after (h : s.AtRest) (now : Instant)
    (hc : c.looks = false ∨ ∃ request, c = .event (.scaled request)) :
    (s.after now c).AtRest := by
  refine ⟨h.sound.after now c, h.tracked.after h.sound now c, ?_⟩
  rcases hc with hlooks | ⟨request, rfl⟩
  · intro pending hphase
    obtain ⟨t, hopen, -, hcourse⟩ := after_course_of_not_looks h.sound hlooks now
    rw [hcourse.phase_eq] at hphase
    have hother : ∀ request, c ≠ .event (.scaled request) := by
      rintro request rfl
      cases hlooks
    obtain ⟨old, hold, -⟩ := hopen.outstanding hother hphase
    exact h.unasked old hold
  · rw [after_scaled_of_status_ne h.status_ne]
    exact h.unasked

/-- A call that looks, and the restart that `Restarts.inPlace` may carry out for it, together leave
the job `AtRest`. -/
theorem AtRest.restarted (h : s.AtRest) (hc : c.Consults) {later : Instant}
    {result? : Option ScaleRequest} (hcall : c.perform now s = .ok request? t)
    (hdispatch : Restarts.inPlace.dispatch later request? t = .ok result? u) : u.AtRest := by
  have hafter : s.after now c = t := final_of_eq_ok hcall
  have hsound : t.Sound := hafter ▸ h.sound.after now c
  have htracked : t.Tracked := hafter ▸ h.tracked.after h.sound now c
  have hreports := reports_of_eq_ok h.sound h.tracked hc hcall
  cases request? with
  | none =>
    cases hdispatch
    refine ⟨hsound, htracked, fun pending hphase => ?_⟩
    cases (hreports pending).2 ⟨h.unasked, hphase⟩
  | some request =>
    have hanswer : s.answer now c = some request := by
      unfold answer
      rw [hcall]
    have hpos : request.Positive := positive_of_answer h.sound h.tracked hanswer
    have hrescaling := status_of_returned h.sound h.tracked hc hcall
    obtain rfl : t.after later (.event (.scaled request)) = u := final_of_eq_ok hdispatch
    exact ⟨hsound.after later _, htracked.after hsound later _,
      fun _ => phase_after_scaled hsound hpos hrescaling⟩

end Scheduler

/-! ## Iterations -/

/-- The call that a signal makes. -/
def Signal.call : Signal → Call
  | .event e => .event e
  | .view v => .event (.resources v)
  | .tick => .tick
  | .poll => .poll

/-- Gives a signal to the scheduler; the request that it leads to is returned. -/
def Signal.ask (now : Instant) : Signal → Scheduling (Option ScaleRequest)
  | .event (.resources v) => Scheduler.resourcesChanged v now
  | .event e => tolerant (e.call now)
  | signal => signal.call.perform now

variable {s t u : Scheduler} {now later : Instant} {signal : Signal} {e : Event}
  {request? : Option ScaleRequest}

/-- Of all events only a change of the resources, `.resources view`, leads to a request. -/
theorem Event.eq_none_of_call (he : ∀ view, e ≠ .resources view)
    (h : e.call now s = .ok request? t) : request? = none := by
  cases e with
  | resources view => exact absurd rfl (he view)
  | running | progress | finished | failed | scaled =>
    obtain ⟨_, _, -, hlast⟩ := exists_of_bind_eq_ok h
    cases hlast
    rfl

/-- A call that is tolerated ends where it would have ended, and returns what it would have returned
or `none`. -/
theorem Scheduling.tolerant_eq_ok {α : Type} {x : Scheduling (Option α)} {a? : Option α}
    (h : x.tolerant s = .ok a? t) : x.final s = t ∧ (x s = .ok a? t ∨ a? = none) := by
  unfold tolerant at h
  unfold final
  split at h
  · next heq =>
    cases h
    exact ⟨by rw [heq], Or.inr rfl⟩
  · exact ⟨by rw [h], Or.inl h⟩

/-- A tolerated event other than `.resources view` leads to no request. -/
theorem Event.eq_none_of_tolerant (he : ∀ view, e ≠ .resources view)
    (h : (e.call now).tolerant s = .ok request? t) : request? = none :=
  (tolerant_eq_ok h).2.elim (Event.eq_none_of_call he) id

/-- Nobody has to carry out what is not asked for: where `x` returns only `none`, `dispatch` adds
nothing. -/
theorem Restarts.bind_dispatch_eq_self {x : Scheduling (Option ScaleRequest)} (r : Restarts)
    (h : ∀ s request? t, x s = .ok request? t → request? = none) : x >>= r.dispatch now = x := by
  funext s
  show EStateM.bind x (r.dispatch now) s = x s
  unfold EStateM.bind
  split
  · next request? t hx =>
    rw [hx, h s request? t hx]
    cases r <;> rfl
  · next i t hx => rw [hx]

/-- A signal is given by asking with `Signal.ask` and then dispatching: the restart that it has led
to is carried out or handed out. -/
theorem Signal.give_eq (r : Restarts) (now : Instant) (signal : Signal) :
    signal.give r now = signal.ask now >>= r.dispatch now := by
  have hevent {e : Event} (he : ∀ view, e ≠ .resources view) :
      (e.call now).tolerant >>= r.dispatch now = (e.call now).tolerant :=
    r.bind_dispatch_eq_self fun _ _ _ => Event.eq_none_of_tolerant he
  cases signal with
  | event e =>
    cases e with
    | resources => rfl
    | running | progress | finished | failed | scaled =>
      exact (hevent fun _ => Event.noConfusion).symm
  | view | poll => rfl
  | tick =>
    refine (r.bind_dispatch_eq_self fun _ _ _ h => ?_).symm
    obtain ⟨_, _, -, hlast⟩ := exists_of_bind_eq_ok h
    cases hlast
    rfl

/-- A signal makes a call that asks for a look, or one that returns no request: a call that does not
look, or `.scaled request`. -/
theorem Signal.ask_eq_ok (h : signal.ask now s = .ok request? t) :
    (signal.call.Consults ∧ signal.call.perform now s = .ok request? t) ∨
      ((signal.call.looks = false ∨ ∃ request, signal.call = .event (.scaled request)) ∧
        request? = none ∧ s.after now signal.call = t) := by
  cases signal with
  | view v => exact Or.inl ⟨Or.inr ⟨v, rfl⟩, h⟩
  | poll => exact Or.inl ⟨Or.inl rfl, h⟩
  | tick =>
    obtain ⟨_, _, -, hlast⟩ := exists_of_bind_eq_ok h
    cases hlast
    exact Or.inr ⟨Or.inl rfl, rfl, final_of_eq_ok h⟩
  | event e =>
    cases e with
    | resources v => exact Or.inl ⟨Or.inr ⟨v, rfl⟩, h⟩
    | scaled request =>
      exact Or.inr ⟨Or.inr ⟨request, rfl⟩,
        Event.eq_none_of_tolerant (fun _ => Event.noConfusion) h, (tolerant_eq_ok h).1⟩
    | running | progress | finished | failed =>
      exact Or.inr ⟨Or.inl rfl, Event.eq_none_of_tolerant (fun _ => Event.noConfusion) h,
        (tolerant_eq_ok h).1⟩

/-- One iteration of a loop that carries out restarts itself: a signal is given, and the restart it
may lead to is carried out. The clock is read again for the restart. -/
def Iterates (s u : Scheduler) : Prop :=
  ∃ (signal : Signal) (now later : Instant) (result? : Option ScaleRequest),
    (signal.ask now >>= Restarts.inPlace.dispatch later) s = .ok result? u

/-- No iteration leaves a restart that is asked for: `AtRest` is kept by `Iterates`. -/
theorem Scheduler.AtRest.iterate (h : s.AtRest) (hiterates : Iterates s u) : u.AtRest := by
  obtain ⟨signal, now, later, result?, heq⟩ := hiterates
  obtain ⟨request?, t, hask, hdispatch⟩ := exists_of_bind_eq_ok heq
  rcases Signal.ask_eq_ok hask with ⟨hc, hcall⟩ | ⟨hc, rfl, rfl⟩
  · exact h.restarted hc hcall hdispatch
  · cases hdispatch
    exact h.after now hc

/-- Any number of iterations keeps `AtRest`, by induction on their chain. -/
theorem Scheduler.AtRest.iterates (h : s.AtRest) (hiterates : Relation.ReflTransGen Iterates s u) :
    u.AtRest := by
  induction hiterates with
  | refl => exact h
  | tail _ hlast ih => exact ih.iterate hlast

/-! ## Turns of a loop on a timetable -/

namespace ControlLoop

variable {c c' c'' : ControlLoop}

/-- A loop between two of its turns, or before the first one. -/
inductive Between (c : ControlLoop) : ControlLoop → Prop
  /-- There is no view at the beginning. -/
  | start (unfollowed : c.views = none) : Between c c
  /-- The view at the beginning has been given to the scheduler. -/
  | viewed {feed : ViewFeed} {c' : ControlLoop} (follows : c.views = some feed)
      (next : { c with seen := feed.changes }.give (.view feed.current) = (.next, c')) :
      Between c c'
  /-- A turn has led to another one. -/
  | turn {c' c'' : ControlLoop} (between : Between c c') (next : c'.turn = (.next, c'')) :
      Between c c''

/-- The loop goes on: if it carries out restarts itself, its scheduler goes on by iterations. -/
structure Goes (c c' : ControlLoop) : Prop where
  /-- It is still the same who carries out restarts. -/
  restarts_eq : c'.restarts = c.restarts
  /-- The scheduler goes on by iterations. -/
  iterates : c.restarts = .inPlace → Relation.ReflTransGen Iterates c.scheduler c'.scheduler

/-- Going on is transitive: the chains of iterations are put one after the other. -/
theorem Goes.trans (h : c.Goes c') (h' : c'.Goes c'') : c.Goes c'' where
  restarts_eq := h'.restarts_eq.trans h.restarts_eq
  iterates hrestarts :=
    (h.iterates hrestarts).trans (h'.iterates (h.restarts_eq.trans hrestarts))

/-- A loop goes on when its `scheduler` and its `restarts` are the same; the scheduler need not be
told anything. -/
theorem Goes.of_eq (hrestarts : c'.restarts = c.restarts)
    (hscheduler : c'.scheduler = c.scheduler) : c.Goes c' :=
  ⟨hrestarts, fun _ => by rw [hscheduler]⟩

/-- A signal that is given with the result `.next` is one iteration. -/
theorem Goes.of_give {signal : Signal} (h : c'.give signal = (.next, c''))
    (hrestarts : c'.restarts = c.restarts) (hscheduler : c'.scheduler = c.scheduler) :
    c.Goes c'' := by
  refine (of_eq hrestarts hscheduler).trans ?_
  unfold give at h
  split at h
  · next result? u hgive =>
    cases h
    refine ⟨rfl, fun hrestarts => .single ⟨signal, c'.now, c'.now, result?, ?_⟩⟩
    rw [← Signal.give_eq, ← hrestarts]
    exact hgive
  · cases h

/-- Whatever happens around the loop on its timetable, the scheduler goes on by iterations at
most. -/
theorem goes_happen (c : ControlLoop) (o : Occurrence) : c.Goes (c.happen o) := by
  cases o with
  | view v =>
    show c.Goes (if c.viewsOpen = true then _ else c)
    split <;> exact .of_eq rfl rfl
  | event | viewsEnd | eventsEnd | stop => exact .of_eq rfl rfl

/-- A whole list `due` of things that happen is gone through one after the other. -/
theorem goes_foldl_happen : ∀ (due : Agenda) (c : ControlLoop),
    c.Goes (due.foldl (fun c entry => c.happen entry.2) c)
  | [], _ => .of_eq rfl rfl
  | entry :: due, c => (goes_happen c entry.2).trans (goes_foldl_happen due _)

/-- Attending to what is due, where the loop then goes on, is a chain of iterations. -/
theorem goes_attend (h : c.attend = (.next, c')) : c.Goes c' := by
  unfold attend at h
  split at h
  · exact .of_give h rfl rfl
  · exact .of_give h rfl rfl
  · split at h
    · cases h
    · cases h
      exact .of_eq rfl rfl
  · cases h
    refine .trans ?_ (goes_foldl_happen _ _)
    exact .of_eq rfl rfl

/-- A turn that does not end the loop is a chain of iterations. -/
theorem goes_turn (h : c.turn = (.next, c')) : c.Goes c' := by
  unfold turn at h
  split at h
  · cases h
  · split at h
    · exact .of_give h rfl rfl
    · split at h
      · exact .of_give h rfl rfl
      · exact goes_attend h

/-- Whatever turns lie between `c` and `c'`, the scheduler has gone on by iterations. -/
theorem Between.goes (h : c.Between c') : c.Goes c' := by
  induction h with
  | start => exact .of_eq rfl rfl
  | viewed _ next => exact .of_give next rfl rfl
  | turn _ next ih => exact ih.trans (goes_turn next)

/-! ### The end of a loop -/

/-- A signal that is given never ends the loop: only `turn` answers `.ended`. -/
theorem give_ne_ended (c : ControlLoop) (signal : Signal) : c.give signal ≠ (.ended, c') := by
  unfold give
  split <;> exact fun h => by cases h

/-- A loop ends where it is: the turn that answers `.ended` changes nothing. -/
theorem eq_of_turn_ended (h : c.turn = (.ended, c')) : c' = c := by
  unfold turn at h
  split at h
  · cases h
    rfl
  · split at h
    · exact absurd h (give_ne_ended _ _)
    · split at h
      · exact absurd h (give_ne_ended _ _)
      · unfold attend at h
        split at h
        · exact absurd h (give_ne_ended _ _)
        · exact absurd h (give_ne_ended _ _)
        · split at h
          · cases h
            rfl
          · cases h
        · cases h

/-- Turns that are not interrupted, whatever their `limit`, end between two turns. -/
theorem Between.turns : ∀ (limit : Nat) {c' : ControlLoop}, c.Between c' →
    c'.turns limit = (none, c'') → c.Between c''
  | 0, _, h, hturns => by
    cases hturns
    exact h
  | limit + 1, c', h, hturns => by
    unfold ControlLoop.turns at hturns
    split at hturns
    · next hnext => exact Between.turns limit (h.turn hnext) hturns
    · next hended =>
      cases hturns
      rw [eq_of_turn_ended hended]
      exact h
    · cases hturns

/-- A whole loop that is not interrupted, `c.run = (none, c')`, ends between two turns. -/
theorem Between.of_run (h : c.run = (none, c')) : c.Between c' := by
  unfold run at h
  split at h
  · unfold ControlLoop.start at h
    split at h
    · next hviews => exact (Between.start hviews).turns turnLimit h
    · next feed hviews =>
      split at h
      · cases h
      · next turn first hother hfirst =>
        cases turn with
        | next => exact (Between.viewed hviews hfirst).turns turnLimit h
        | ended => exact absurd hfirst (give_ne_ended _ _)
        | interrupted i => exact absurd rfl (hother i)
  · cases h

end ControlLoop

/-! ## Every request -/

namespace Scheduler

variable {s : Scheduler} {config : Config} {job : JobGraph} {backend : Backend} {start : Instant}

/-- After any history of a submitted job the scheduler is `AtRest`, provided that it is
`Unasked`. -/
theorem AtRest.of_run (hsubmit : submit config job backend start = .ok s) (history : History)
    (hunasked : (s.run history).Unasked) : (s.run history).AtRest := by
  obtain ⟨hs, h⟩ := sound_and_tracked_run (.of_submit hsubmit) (.of_submit hsubmit) history
  exact ⟨hs, h, hunasked⟩

/-- A job that has just been submitted asks for no restart. -/
theorem unasked_of_submit (hsubmit : submit config job backend start = .ok s) : s.Unasked := by
  obtain ⟨order, -, -, rfl⟩ := submit_eq_ok hsubmit
  intro pending hphase
  cases hphase

/-- **No request for a restart is lost.** After any history of a submitted job, a poll or a change
of the resources that returns has a request as its result exactly when it has begun to ask for that
restart (`Reports`). No restart is asked for at the beginning, and a loop that carries out restarts
itself (`restarts = .inPlace`), and takes over the job at any time at which none is asked for,
leaves it `Unasked`: after any number of iterations, whatever they are about and at whatever times,
and on any timetable, between two turns and at the end. -/
theorem requests_handed_over (hsubmit : submit config job backend start = .ok s) :
    (∀ (history : History) (now : Instant) (request? : Option ScaleRequest) (u : Scheduler),
      (poll now (s.run history) = .ok request? u → (s.run history).Reports request? u) ∧
      ∀ view, resourcesChanged view now (s.run history) = .ok request? u →
        (s.run history).Reports request? u) ∧
    s.Unasked ∧
    ∀ history : History, (s.run history).Unasked →
      (∀ u, Relation.ReflTransGen Iterates (s.run history) u → u.Unasked) ∧
      ∀ loop : ControlLoop, loop.scheduler = s.run history → loop.restarts = .inPlace →
        (∀ c, loop.Between c → c.scheduler.Unasked) ∧
        ∀ c, loop.run = (none, c) → c.scheduler.Unasked := by
  refine ⟨fun history now request? u => ?_, unasked_of_submit hsubmit, fun history hunasked => ?_⟩
  · obtain ⟨hs, h⟩ := sound_and_tracked_run (.of_submit hsubmit) (.of_submit hsubmit) history
    exact ⟨reports_of_eq_ok hs h (c := .poll) (Or.inl rfl), fun view =>
      reports_of_eq_ok hs h (c := .event (.resources view)) (Or.inr ⟨view, rfl⟩)⟩
  · have hrest := AtRest.of_run hsubmit history hunasked
    have hbetween (loop : ControlLoop) (hscheduler : loop.scheduler = s.run history)
        (hrestarts : loop.restarts = .inPlace) (c : ControlLoop) (hc : loop.Between c) :
        c.scheduler.Unasked :=
      ((hscheduler ▸ hrest).iterates (hc.goes.iterates hrestarts)).unasked
    exact ⟨fun u hu => (hrest.iterates hu).unasked, fun loop hscheduler hrestarts =>
      ⟨hbetween loop hscheduler hrestarts, fun c hrun =>
        hbetween loop hscheduler hrestarts c (.of_run hrun)⟩⟩

/-! ### A loop on a growing cluster -/

/-- The job starts on one slot, and another one comes later. Before that a restart is reported from
outside that nobody has asked for. -/
def sampleLoop (s : Scheduler) : ControlLoop where
  scheduler := s
  pollInterval := .ofSeconds 10
  views := some { current := Sample.view 1 }
  agenda := [(Sample.later, .event (.scaled Sample.request)),
    (Sample.latest, .view (Sample.view 2)), (Sample.latest, .stop)]

/-- The second slot leads to a request. The loop carries it out, and only this one, `rescales = 1`,
and ends without a request. -/
theorem requests_handed_over_sample : ∃ s request u c,
    submit Sample.config Sample.job .willing .origin = .ok s ∧
      resourcesChanged (Sample.view 2) Sample.latest (s.run (Sample.growth.take 2)) =
        .ok (some request) u ∧
      (s.run (Sample.growth.take 2)).Unasked ∧ u.controller.phase = .evaluating request ∧
      (sampleLoop s).run = (none, c) ∧ c.scheduler.rescales = 1 ∧ c.scheduler.Unasked := by
  have htest : (submit Sample.config Sample.job .willing .origin).toOption.any (fun s =>
      ((s.run (Sample.growth.take 2)).answer Sample.latest
        (.event (.resources (Sample.view 2)))).isSome &&
      ((sampleLoop s).run.1.isNone && decide ((sampleLoop s).run.2.scheduler.rescales = 1))) =
        true := by
    decide +kernel
  obtain ⟨s, hs, heval⟩ := exists_of_submit htest
  simp only [Bool.and_eq_true, decide_eq_true_eq, Option.isNone_iff_eq_none] at heval
  obtain ⟨hanswer, hend, hrescales⟩ := heval
  obtain ⟨request, hrequest⟩ := Option.isSome_iff_exists.1 hanswer
  obtain ⟨u, hcall⟩ := exists_of_answer hrequest
  obtain ⟨hreports, -, hloops⟩ := requests_handed_over hs
  obtain ⟨hunasked, hphase⟩ :=
    ((hreports (Sample.growth.take 2) Sample.latest (some request) u).2 _ hcall request).1 rfl
  have hrun : (sampleLoop s).run = (none, (sampleLoop s).run.2) := Prod.ext hend rfl
  obtain ⟨-, htimetables⟩ := hloops [] (unasked_of_submit hs)
  exact ⟨s, request, u, (sampleLoop s).run.2, hs, hcall, hunasked, hphase, hrun, hrescales,
    (htimetables (sampleLoop s) rfl rfl).2 _ hrun⟩

end Scheduler

end AdaptiveBatch
