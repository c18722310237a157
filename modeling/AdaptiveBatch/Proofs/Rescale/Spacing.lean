import AdaptiveBatch.Proofs.Config.Validation
import AdaptiveBatch.Proofs.Rescale.Runs

/-! # Restarts and the time between them

A controller that has asked for a restart asks for the next one only after the restart was carried
out and the job has started again, each once, and not before the least interval has passed. That the
largest interval makes no exception rests on the check that it is not shorter than the least one. A
controller that has given up never acts again.

* **`RescaleController.Turn.hasRestarted`**, **`RescaleController.Turn.hasStarted`** — the turns that
  are counted between two requests;
* **`RescaleController.Asked`** — how far a restart has come since it was asked for;
* **`RescaleController.scales_alternate_with_starts`** — two requests that follow each other, and
  what follows a failure. -/

namespace AdaptiveBatch

/-- Whether an action starts the job. -/
def RescaleAction.isStart : RescaleAction → Bool
  | start .. => true
  | _ => false

namespace RescaleController

variable {c c' : RescaleController} {settings : RescaleConfig} {asked now : Instant}
  {op : Operation} {action : RescaleAction} {action? : Option RescaleAction}
  {request : ScaleRequest} {ts : List Turn} {restarts starts : Nat}

/-! ## Turns that restart and turns that start -/

/-- Whether a call carries out a restart that was asked for. -/
def carriesOut (c : RescaleController) : Operation → Bool
  | .restarted => match c.phase with
    | .evaluating _ => true
    | _ => false
  | _ => false

/-- Whether a turn carries out a restart that was asked for. -/
def Turn.hasRestarted (t : Turn) : Bool := t.before.carriesOut t.operation

/-- Whether a turn starts the job. -/
def Turn.hasStarted (t : Turn) : Bool := t.action.any RescaleAction.isStart

/-- A restart that is asked for is carried out by `.restarted`. -/
theorem carriesOut_of_pending (h : c.phase = .evaluating request) :
    c.carriesOut .restarted = true := by
  rw [carriesOut, h]

/-- A restart that nobody has asked for is not carried out. -/
theorem carriesOut_of_not_pending (h : ∀ request, c.phase ≠ .evaluating request) :
    c.carriesOut .restarted = false := by
  unfold carriesOut
  cases hphase : c.phase with
  | evaluating request => exact absurd hphase (h request)
  | waiting | running | failed => rfl

/-- A restart that is carried out lets the job wait, from `now` on and without a timer, for its plan
with the changes of the request. -/
theorem phase_awaitRestart (h : c.phase = .evaluating request) :
    (c.awaitRestart now).phase = .waiting now (c.current.override request.plan) none := by
  unfold awaitRestart
  rw [h]

/-- Only a job that runs asks for a restart: one that is `.evaluating` after a look was so before,
or was `.running`. -/
theorem Evaluated.pending (h : c.Evaluated now action c') (hpending : c'.phase = .evaluating request) :
    c.phase = .evaluating request ∨ ∃ since, c.phase = .running since := by
  cases h with
  | idle => exact Or.inl hpending
  | wait | start | startReduced | insufficient => cases hpending
  | scale running => exact Or.inr ⟨_, running⟩

/-- A call carries out a restart iff it is `.restarted` and changes the controller. -/
theorem Happened.carriesOut_iff (h : Happened c now op action? c') :
    c.carriesOut op = true ↔ op = .restarted ∧ c' ≠ c := by
  cases h with
  | restarted pending evaluated =>
    refine ⟨fun _ => ⟨rfl, ?_⟩, fun _ => carriesOut_of_pending pending⟩
    -- The restart ends the phase in which it was asked for.
    rintro rfl
    rcases evaluated.pending pending with hphase | ⟨since, hphase⟩ <;>
      · rw [phase_awaitRestart pending] at hphase
        cases hphase
  | unasked not_pending =>
    rw [carriesOut_of_not_pending not_pending]
    simp
  | resourcesChanged | poll | track | untrack => simp [carriesOut]

/-- A restart is carried out exactly when the call `.restarted` has an effect. -/
theorem Turn.hasRestarted_iff {t : Turn} :
    t.hasRestarted = true ↔ t.operation = .restarted ∧ t.after ≠ t.before :=
  t.happened.carriesOut_iff

/-! ## Counting from a request on -/

/-- No call changes the `settings`. -/
theorem Happened.settings_eq (h : Happened c now op action? c') : c'.settings = c.settings := by
  cases h with
  | resourcesChanged evaluated => exact evaluated.frame.2.1
  | poll evaluated => exact evaluated.frame.2.1
  | restarted pending evaluated => rw [evaluated.frame.2.1, awaitRestart, pending]
  | unasked | track | untrack => rfl

/-- How many restarts and how many starts there have been since a restart was asked for, as the phase
tells: it is asked for, it is carried out, the job runs again. -/
def Stage (c : RescaleController) (restarts starts : Nat) : Prop :=
  match c.phase with
  | .evaluating _ => restarts = 0 ∧ starts = 0
  | .waiting .. => restarts = 1 ∧ starts = 0
  | .running _ => restarts = 1 ∧ starts = 1
  | .failed .. => True

/-- A restart was asked for at a time, and nothing has been asked for since. -/
structure Asked (settings : RescaleConfig) (asked : Instant) (restarts starts : Nat)
    (c : RescaleController) : Prop where
  /-- The settings. -/
  settings_eq : c.settings = settings
  /-- The time is remembered. -/
  decided : ∃ decision ∈ c.lastDecision, decision.decidedAt = asked
  /-- So many restarts were carried out, and so often the job has started. -/
  stage : c.Stage restarts starts

/-- A look that asks for nothing remembers when a restart was `asked` for, and counts one more start
if it starts the job. -/
theorem Evaluated.keeps_asked (h : c.Evaluated now action c') (hnot : ∀ request, action ≠ .scale request)
    (hc : c.Asked settings asked restarts starts) :
    c'.Asked settings asked restarts (starts + if action.isStart then 1 else 0) := by
  obtain ⟨hsettings, hdecided, hstage⟩ := hc
  cases h with
  | idle => exact ⟨hsettings, hdecided, hstage⟩
  | wait waiting =>
    unfold Stage at hstage
    rw [waiting] at hstage
    exact ⟨hsettings, hdecided, hstage⟩
  | start waiting | startReduced waiting =>
    unfold Stage at hstage
    rw [waiting] at hstage
    exact ⟨hsettings, hdecided, hstage.1, congrArg (· + 1) hstage.2⟩
  | insufficient => exact ⟨hsettings, hdecided, trivial⟩
  | scale => exact absurd rfl (hnot _)

/-- What is remembered of a request depends on the settings, the `lastDecision` and the phase
only. -/
theorem Asked.of_eq (h : c.Asked settings asked restarts starts)
    (hsettings : c'.settings = c.settings) (hdecision : c'.lastDecision = c.lastDecision)
    (hstage : c.Stage restarts starts → c'.Stage restarts starts) :
    c'.Asked settings asked restarts starts :=
  ⟨hsettings.trans h.settings_eq, hdecision ▸ h.decided, hstage h.stage⟩

/-- Untracking a vertex makes no difference to the counts of restarts and starts that the phase
tells. -/
theorem stage_untrack (vertex : VertexId) (h : c.Stage restarts starts) :
    (c.untrack vertex).Stage restarts starts := by
  unfold Stage untrack at *
  cases hphase : c.phase <;> simp_all

/-- A turn that asks for nothing remembers when a restart was `asked` for, and counts the restart or
the start that it makes. -/
theorem Happened.keeps_asked (h : Happened c now op action? c')
    (hnot : ∀ request, action? ≠ some (.scale request))
    (hc : c.Asked settings asked restarts starts) :
    c'.Asked settings asked (restarts + if c.carriesOut op then 1 else 0)
      (starts + if action?.any RescaleAction.isStart then 1 else 0) := by
  have hlook (action : RescaleAction) (haction : action? = some action) (request : ScaleRequest) :
      action ≠ .scale request := by
    rintro rfl
    exact hnot request haction
  cases h with
  | resourcesChanged evaluated =>
    exact evaluated.keeps_asked (hlook _ rfl) (hc.of_eq rfl rfl id)
  | poll evaluated => exact evaluated.keeps_asked (hlook _ rfl) hc
  | restarted pending evaluated =>
    -- The restart that was asked for is carried out, and then the job waits.
    have hstage := hc.stage
    unfold Stage at hstage
    rw [pending] at hstage
    obtain ⟨rfl, rfl⟩ := hstage
    rw [carriesOut_of_pending pending, if_pos rfl]
    refine evaluated.keeps_asked (hlook _ rfl) ⟨?_, ?_, ?_⟩
    · rw [awaitRestart, pending]
      exact hc.settings_eq
    · rw [awaitRestart, pending]
      exact hc.decided
    · unfold Stage
      rw [phase_awaitRestart pending]
      exact ⟨rfl, rfl⟩
  | unasked not_pending =>
    rw [carriesOut_of_not_pending not_pending]
    exact hc
  | track vertex requirement parallelism => exact hc.of_eq rfl rfl id
  | untrack vertex => exact hc.of_eq rfl rfl (stage_untrack vertex)

/-- Turns that ask for nothing remember when a restart was `asked` for, and count their restarts and
starts. -/
theorem Linked.keeps_asked (h : Linked c ts c')
    (hnot : ∀ t ∈ ts, ∀ request, t.action ≠ some (.scale request))
    (hc : c.Asked settings asked restarts starts) :
    c'.Asked settings asked (restarts + ts.countP Turn.hasRestarted)
      (starts + ts.countP Turn.hasStarted) := by
  induction h generalizing restarts starts with
  | nil => exact hc
  | @cons t ts _ rest ih =>
    rw [List.forall_mem_cons] at hnot
    have hnext := ih hnot.2 (t.happened.keeps_asked hnot.1 hc)
    have hcount (p : Turn → Bool) (n : Nat) :
        n + (if p t then 1 else 0) + ts.countP p = n + (t :: ts).countP p := by
      rw [List.countP_cons]
      omega
    rw [← hcount Turn.hasRestarted, ← hcount Turn.hasStarted]
    exact hnext

/-! ## Requests -/

/-- A turn that asks for a restart does so by a look of a controller `d` in the same phase, with the
same `lastDecision`. -/
theorem Happened.of_scale (h : Happened c now op (some (.scale request)) c') :
    ∃ d : RescaleController, d.phase = c.phase ∧ d.settings = c.settings ∧
      d.lastDecision = c.lastDecision ∧ d.Evaluated now (.scale request) c' := by
  cases h with
  | @resourcesChanged view _ _ evaluated => exact ⟨{ c with view }, rfl, rfl, rfl, evaluated⟩
  | poll evaluated => exact ⟨c, rfl, rfl, rfl, evaluated⟩
  | restarted pending evaluated =>
    -- After a restart the job waits first.
    cases evaluated with
    | scale running =>
      rw [phase_awaitRestart pending] at running
      cases running

/-- From a request on, the counts start with `0` and `0`, and `now` is remembered. -/
theorem Happened.asked_of_scale (h : Happened c now op (some (.scale request)) c') :
    request.issuedAt = now ∧ c'.Asked c.settings now 0 0 := by
  obtain ⟨d, -, hsettings, -, evaluated⟩ := h.of_scale
  cases evaluated with
  | scale => exact ⟨rfl, hsettings, ⟨_, rfl, rfl⟩, rfl, rfl⟩

/-- The next request comes after one restart and one start, and not before `settings.intervalMin`
has passed. -/
theorem Asked.of_scale (h : c.Asked settings asked restarts starts)
    (hsettings : ∀ interval, settings.intervalMax = some interval → settings.intervalMin ≤ interval)
    (hscale : Happened c now op (some (.scale request)) c') :
    restarts = 1 ∧ starts = 1 ∧ settings.intervalMin ≤ now.since asked := by
  obtain ⟨d, hphase, hkept, hdecision, evaluated⟩ := hscale.of_scale
  obtain ⟨decision, hlast, rfl⟩ := h.decided
  rw [← hdecision] at hlast
  have hd : d.settings = settings := hkept.trans h.settings_eq
  cases evaluated with
  | @scale since reason running changes due =>
    have hstage := h.stage
    unfold Stage at hstage
    rw [← hphase, running] at hstage
    refine ⟨hstage.1, hstage.2, ?_⟩
    split at due
    · -- The largest interval has passed, and it is not shorter than the least one.
      unfold isForced at due
      cases hmax : d.settings.intervalMax with
      | none => rw [hmax] at due; cases due
      | some interval =>
        rw [hmax, hlast] at due
        have hpassed : interval ≤ now.since decision.decidedAt :=
          of_decide_eq_true (Bool.and_eq_true_iff.1 due).1
        exact Nat.le_trans (hsettings interval (hd ▸ hmax)) hpassed
    · unfold intervalHasPassed at due
      rw [hlast, hd] at due
      exact of_decide_eq_true due

/-! ## Failures -/

/-- A controller that has given up. -/
def HasFailed (c : RescaleController) : Prop :=
  ∃ available required, c.phase = .failed available required

/-- A look of a controller that has given up is `.idle`, and it has still given up. -/
theorem Evaluated.of_failed (h : c.Evaluated now action c') (hfailed : c.HasFailed) :
    action = .idle ∧ c'.HasFailed := by
  obtain ⟨available, required, hphase⟩ := hfailed
  cases h with
  | idle => exact ⟨rfl, available, required, hphase⟩
  | wait waiting | start waiting | startReduced waiting | insufficient waiting =>
    rw [hphase] at waiting
    cases waiting
  | scale running =>
    rw [hphase] at running
    cases running

/-- Whatever it is called for, a controller that has given up never acts again: it returns `.idle`
or nothing. -/
theorem Happened.of_failed (h : Happened c now op action? c') (hfailed : c.HasFailed) :
    (∀ action, action? = some action → action = .idle) ∧ c'.HasFailed := by
  cases h with
  | resourcesChanged evaluated =>
    obtain ⟨rfl, hnext⟩ := evaluated.of_failed hfailed
    exact ⟨fun _ heq => (Option.some.inj heq).symm, hnext⟩
  | poll evaluated =>
    obtain ⟨rfl, hnext⟩ := evaluated.of_failed hfailed
    exact ⟨fun _ heq => (Option.some.inj heq).symm, hnext⟩
  | restarted pending =>
    obtain ⟨available, required, hphase⟩ := hfailed
    rw [hphase] at pending
    cases pending
  | unasked => exact ⟨fun _ heq => (Option.some.inj heq).symm, hfailed⟩
  | track => exact ⟨nofun, hfailed⟩
  | untrack vertex =>
    refine ⟨nofun, ?_⟩
    obtain ⟨available, required, hphase⟩ := hfailed
    exact ⟨available, required, by rw [RescaleController.untrack, hphase]⟩

/-- A controller that returns `.insufficient` has given up. -/
theorem Happened.hasFailed {available required : Nat}
    (h : Happened c now op (some (.insufficient available required)) c') : c'.HasFailed := by
  cases h with
  | resourcesChanged evaluated | poll evaluated | restarted _ evaluated =>
    cases evaluated
    exact ⟨_, _, rfl⟩

/-! ## The whole run -/

/-- **Restarts are asked for in turn.** Between two `scale` actions that follow each other, a
restart is carried out exactly once (`Turn.hasRestarted`) and the job starts exactly once
(`Turn.hasStarted`), and `intervalMin` passes, whatever the reasons of the requests are. Nothing
happens after the controller has given up (`insufficient`). -/
theorem scales_alternate_with_starts {config : Config} (hvalid : config.validate = .ok ())
    (requirements : Std.ExtTreeMap VertexId Requirement) (start : Instant)
    (calls : List (Instant × Operation)) :
    (∀ before first middle second after earlier later,
      (ofRequirements config.rescale requirements start).turns calls =
        before ++ first :: (middle ++ second :: after) →
      first.action = some (.scale earlier) → second.action = some (.scale later) →
      (∀ t ∈ middle, ∀ request, t.action ≠ some (.scale request)) →
        middle.countP Turn.hasRestarted = 1 ∧ middle.countP Turn.hasStarted = 1 ∧
          config.rescale.intervalMin ≤ later.issuedAt.since earlier.issuedAt) ∧
    ∀ before first after available required,
      (ofRequirements config.rescale requirements start).turns calls = before ++ first :: after →
      first.action = some (.insufficient available required) →
        ∀ t ∈ after, ∀ action, t.action = some action → action = .idle := by
  obtain ⟨last, hlinked⟩ := linked_turns (ofRequirements config.rescale requirements start) calls
  constructor
  · intro before first middle second after earlier later heq hfirst hsecond hbetween
    rw [heq] at hlinked
    obtain ⟨c, hbefore, hrest⟩ := hlinked.of_append
    cases hrest with
    | cons _ hrest =>
      obtain ⟨d, hmiddle, hrest⟩ := hrest.of_append
      cases hrest with
      | cons _ hafter =>
        have hsettings : first.before.settings = config.rescale :=
          hbefore.keeps (J := fun c => c.settings = config.rescale)
            (fun t _ hc => t.happened.settings_eq.trans hc) rfl
        -- The counts start at the first request, and the second one looks at them.
        obtain ⟨hearlier, hasked⟩ := (hfirst ▸ first.happened).asked_of_scale
        rw [hsettings] at hasked
        have hcounted := hmiddle.keeps_asked hbetween hasked
        have hscale := hsecond ▸ second.happened
        obtain ⟨hrestarts, hstarts, hpassed⟩ := hcounted.of_scale
          (fun _ => (Config.validateRescale_eq_ok_iff.1
            (Config.validate_eq_ok_iff.1 hvalid).2.2.2.2.1).2 _) hscale
        rw [Nat.zero_add] at hrestarts hstarts
        rw [hearlier, hscale.asked_of_scale.1]
        exact ⟨hrestarts, hstarts, hpassed⟩
  · intro before first after available required heq hfirst t ht action haction
    rw [heq] at hlinked
    obtain ⟨c, -, hrest⟩ := hlinked.of_append
    cases hrest with
    | cons _ hafter =>
      have hfailed : first.after.HasFailed := (hfirst ▸ first.happened).hasFailed
      have hbefore := hafter.forall_before (fun t _ hc => (t.happened.of_failed hc).2) hfailed t ht
      exact (t.happened.of_failed hbefore).1 action haction

/-- A source that desires two tasks. -/
def sampleRequirements : Std.ExtTreeMap VertexId Requirement :=
  (∅ : Std.ExtTreeMap VertexId Requirement).insert "source" (.between 1 2)

/-- The job starts on two slots and loses one. After the restart the slot comes back; the controller
looks again before the least interval has passed, and afterwards. -/
def sampleCalls : List (Instant × Operation) :=
  [(sampleTime 0, .resourcesChanged (sampleView 2)),
    (sampleTime 10, .resourcesChanged (sampleView 1)), (sampleTime 20, .restarted),
    (sampleTime 30, .resourcesChanged (sampleView 2)), (sampleTime 40, .poll)]

/-- The `sampleCalls` let the job shrink and grow; the second request keeps its distance. -/
theorem scales_alternate_with_starts_sample : ∃ first second : Turn, ∃ earlier later : ScaleRequest,
    ((ofRequirements ({} : Config).rescale sampleRequirements (sampleTime 0)).turns
      sampleCalls)[1]? = some first ∧
    ((ofRequirements ({} : Config).rescale sampleRequirements (sampleTime 0)).turns
      sampleCalls)[4]? = some second ∧
    first.action = some (.scale earlier) ∧ second.action = some (.scale later) ∧
      ({} : Config).rescale.intervalMin ≤ later.issuedAt.since earlier.issuedAt := by
  have hvalid : ({} : Config).validate = .ok () := by
    have hok : ({} : Config).validate.isOk = true := by decide +kernel
    cases h : ({} : Config).validate with
    | ok u => rfl
    | error e => rw [h] at hok; cases hok
  let earlier : ScaleRequest :=
    { plan := samplePlan 1, reason := .decrease, issuedAt := sampleTime 10 }
  let later : ScaleRequest :=
    { plan := samplePlan 2, reason := .increase, issuedAt := sampleTime 40 }
  have hactions : ((ofRequirements ({} : Config).rescale sampleRequirements (sampleTime 0)).turns
      sampleCalls).map (·.action) = [some (.start (samplePlan 2) false), some (.scale earlier),
        some (.start (samplePlan 1) false), some .idle, some (.scale later)] := by
    decide +kernel
  have hrun := (scales_alternate_with_starts hvalid sampleRequirements (sampleTime 0)
    sampleCalls).1
  generalize (ofRequirements ({} : Config).rescale sampleRequirements (sampleTime 0)).turns
    sampleCalls = ts at hactions hrun
  obtain ⟨t₀, ts, rfl, -, hactions⟩ := List.map_eq_cons_iff.1 hactions
  obtain ⟨t₁, ts, rfl, h₁, hactions⟩ := List.map_eq_cons_iff.1 hactions
  obtain ⟨t₂, ts, rfl, h₂, hactions⟩ := List.map_eq_cons_iff.1 hactions
  obtain ⟨t₃, ts, rfl, h₃, hactions⟩ := List.map_eq_cons_iff.1 hactions
  obtain ⟨t₄, ts, rfl, h₄, -⟩ := List.map_eq_cons_iff.1 hactions
  have hbetween : ∀ t ∈ [t₂, t₃], ∀ request, t.action ≠ some (.scale request) := by
    simp [h₂, h₃]
  exact ⟨t₁, t₄, earlier, later, rfl, rfl, h₁, h₄,
    (hrun [t₀] t₁ [t₂, t₃] t₄ ts earlier later rfl h₁ h₄ hbetween).2.2⟩

end RescaleController

end AdaptiveBatch
