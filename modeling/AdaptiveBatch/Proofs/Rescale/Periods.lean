import AdaptiveBatch.Proofs.Rescale.Spacing
import Mathlib.Data.List.DropRight
import Mathlib.Data.List.MinMax

/-! # Waiting periods

A job waits from its submission, or from a restart, until it starts, and looks at the resources all the
while. The controller keeps no record of these looks; what it remembers of them is the stabilization
timer. The timer is armed exactly when the last look found enough slots. It was then set by one of the
looks since the slots last fell short: by the first of those that saw the most slots.

* **`RescaleController.Look`**, **`RescaleController.Turn.look?`** — what a look of a job that waits sees;
* **`RescaleController.WaitingPeriod`**, **`RescaleController.periodAt`** — the looks since the job last
  began to wait;
* **`RescaleController.arming?`** — the look that has set the timer;
* **`RescaleController.Recalls`** — the timer is the one that this look has set; every turn keeps it so. -/

namespace AdaptiveBatch.RescaleController

variable {c c' d : RescaleController} {settings : RescaleConfig} {start now since : Instant}
  {target : ParallelismPlan} {timer : Option Stabilization} {action : RescaleAction} {op : Operation} {t : Turn}
  {before ts : List Turn}

/-! ## Looks -/

/-- What a look of a job that waits sees. -/
structure Look where
  /-- When it is taken. -/
  now : Instant
  /-- The slots that there are. -/
  slots : Nat
  /-- The slots without which nothing can run. -/
  required : Nat
  /-- The slots of the plan for which the job waits. -/
  wanted : Nat
deriving DecidableEq, Repr

/-- Whether there are slots enough for something to run. -/
def Look.isEnough (l : Look) : Bool := decide (l.required ≤ l.slots)

/-- A look finds enough iff the slots it sees, `l.slots`, suffice for what is `required`. -/
theorem Look.isEnough_iff {l : Look} : l.isEnough = true ↔ l.required ≤ l.slots := decide_eq_true_iff

/-- What a look sees, if the job waits. -/
def look? (c : RescaleController) (now : Instant) : Option Look :=
  match c.phase with
  | .waiting _ target _ =>
    some { now, slots := c.view.slotCount, required := c.requiredSlots, wanted := target.slots }
  | _ => none

/-- The controller as a call finds it when it looks at the resources, if the call does so. -/
def found? (c : RescaleController) (now : Instant) : Operation → Option RescaleController
  | .resourcesChanged view => some { c with view }
  | .poll => some c
  | .restarted => match c.phase with
    | .evaluating _ => some (c.awaitRestart now)
    | _ => none
  | .track .. | .untrack .. => none

/-- The controller as a turn finds it when it looks at the resources. -/
def Turn.found? (t : Turn) : Option RescaleController := t.before.found? t.now t.operation

/-- What a turn sees, if it is a look of a job that waits. -/
def Turn.look? (t : Turn) : Option Look := t.found?.bind (·.look? t.now)

/-- A look of a job that waits for `target` sees the slots of the view, those required and those of
`target`. -/
theorem look?_of_waiting (h : c.phase = .waiting since target timer) :
    c.look? now = some ⟨now, c.view.slotCount, c.requiredSlots, target.slots⟩ := by
  rw [look?, h]

/-- A look knows when it was taken. -/
theorem now_of_look? {l : Look} (h : c.look? now = some l) : l.now = now := by
  unfold look? at h
  split at h
  · cases h; rfl
  · cases h

/-- A restart that was asked for is followed by a look, which finds the controller of
`c.awaitRestart now`. -/
theorem found?_of_pending {request : ScaleRequest} (h : c.phase = .evaluating request) :
    c.found? now .restarted = some (c.awaitRestart now) := by
  rw [found?, h]

/-- A restart that nobody has asked for is not followed by a look. -/
theorem found?_of_not_pending (h : ∀ request, c.phase ≠ .evaluating request) :
    c.found? now .restarted = none := by
  unfold found?
  cases hphase : c.phase with
  | evaluating request => exact absurd hphase (h request)
  | waiting | running | failed => rfl

/-- What a turn sees is what the controller `d` that it finds lets it see. -/
theorem Turn.look?_of_found (h : t.found? = some d) : t.look? = d.look? t.now := by
  rw [Turn.look?, h, Option.bind_some]

/-- A turn that sees something has found a controller that waits. -/
theorem Turn.exists_found {l : Look} (h : t.look? = some l) :
    ∃ d, t.found? = some d ∧ d.look? t.now = some l :=
  Option.bind_eq_some_iff.1 h

/-- A call that looks at the resources does nothing after its look: it returns what `d.evaluate`
decides. -/
theorem evaluate_of_found {action? : Option RescaleAction}
    (h : c.perform now op = .ok (action?, c')) (hfound : c.found? now op = some d) :
    ∃ action, action? = some action ∧ d.evaluate now = .ok (action, c') := by
  cases op with
  | resourcesChanged view => cases hfound; exact perform_look_eq_ok h
  | poll => cases hfound; exact perform_look_eq_ok h
  | restarted =>
    obtain ⟨action, haction, hlook⟩ := perform_look_eq_ok h
    refine ⟨action, haction, ?_⟩
    unfold RescaleController.restarted at hlook
    split at hlook
    · next request hpending =>
      rw [found?_of_pending hpending] at hfound
      cases hfound
      exact hlook
    · next hnot =>
      rw [found?_of_not_pending hnot] at hfound
      cases hfound
  | track | untrack => cases hfound

/-- A call that does not look at the resources decides nothing and leaves the timer alone; it
carries out no restart. -/
theorem Happened.of_not_found {action? : Option RescaleAction} (h : Happened c now op action? c')
    (hfound : c.found? now op = none) :
    c.carriesOut op = false ∧ (∀ action, action? = some action → action = .idle) ∧
      ∀ since target timer, c'.phase = .waiting since target timer →
        ∃ old, c.phase = .waiting since old timer := by
  cases h with
  | resourcesChanged | poll => cases hfound
  | restarted pending => rw [found?_of_pending pending] at hfound; cases hfound
  | unasked hnot =>
    exact ⟨carriesOut_of_not_pending hnot, fun _ heq => (Option.some.inj heq).symm,
      fun _ target _ hphase => ⟨target, hphase⟩⟩
  | track vertex r p => exact ⟨rfl, nofun, fun _ target _ hphase => ⟨target, hphase⟩⟩
  | untrack vertex =>
    refine ⟨rfl, nofun, ?_⟩
    intro since target timer hphase
    unfold RescaleController.untrack at hphase
    cases hc : c.phase with
    | waiting => rw [hc] at hphase; cases hphase; exact ⟨_, rfl⟩
    | running | evaluating | failed => rw [hc] at hphase; cases hphase

/-! ## The looks of a period -/

/-- A time in which a job waits. -/
structure WaitingPeriod where
  /-- When it began. -/
  since : Instant
  /-- The looks that were taken, in order. -/
  looks : List Look

/-- The waiting period in which a turn looks: a restart begins a new one. -/
def WaitingPeriod.entered (period : WaitingPeriod) (t : Turn) : WaitingPeriod :=
  if t.hasRestarted then { since := t.now, looks := [] } else period

/-- The waiting period after a turn. -/
def WaitingPeriod.extend (period : WaitingPeriod) (t : Turn) : WaitingPeriod :=
  { period.entered t with looks := (period.entered t).looks ++ t.look?.toList }

/-- The waiting period in which a turn of a run looks, with the looks that were taken before it. -/
def periodAt (start : Instant) (before : List Turn) (t : Turn) : WaitingPeriod :=
  (before.foldl WaitingPeriod.extend { since := start, looks := [] }).entered t

/-- The turns are in the order of time. -/
def InOrder (start : Instant) (ts : List Turn) : Prop := (start :: ts.map (·.now)).Pairwise (· ≤ ·)

/-- A period begins with the run, at `period.since`, or with one of its turns. -/
theorem since_foldl (period : WaitingPeriod) (ts : List Turn) :
    (ts.foldl WaitingPeriod.extend period).since ∈ period.since :: ts.map (·.now) := by
  induction ts generalizing period with
  | nil => exact List.mem_cons_self
  | cons t ts ih =>
    have hnext := ih (period.extend t)
    have hsince : (period.extend t).since = period.since ∨ (period.extend t).since = t.now := by
      show (period.entered t).since = _ ∨ (period.entered t).since = _
      unfold WaitingPeriod.entered
      split
      · exact Or.inr rfl
      · exact Or.inl rfl
    rw [List.foldl_cons, List.map_cons]
    rcases hsince with hsince | hsince <;>
      · rw [hsince] at hnext
        simp only [List.mem_cons] at hnext ⊢
        tauto

/-- In a run in the order of time the period of a turn began no later than the turn. -/
theorem since_periodAt_le (h : InOrder start (before ++ [t])) :
    (periodAt start before t).since ≤ t.now := by
  unfold periodAt WaitingPeriod.entered
  split
  · exact Nat.le_refl _
  · unfold InOrder at h
    rw [List.map_append, ← List.cons_append, List.pairwise_append] at h
    exact h.2.2 _ (since_foldl _ before) _ (List.mem_singleton.2 rfl)

/-! ## The look that sets the timer -/

/-- The looks since the slots last fell short. -/
def sinceShortfall (looks : List Look) : List Look := looks.rtakeWhile Look.isEnough

/-- The look that has set the timer: of the looks since the slots last fell short, the first that saw the
most slots. -/
def arming? (looks : List Look) : Option Look := (sinceShortfall looks).argmax Look.slots

variable {looks : List Look} {l a : Look}

/-- A look that does not find enough leaves no timer. -/
theorem arming?_append_of_short (h : l.isEnough = false) : arming? (looks ++ [l]) = none := by
  rw [arming?, sinceShortfall, List.rtakeWhile_concat_neg _ _ _ (by rw [h]; exact Bool.false_ne_true),
    List.argmax_nil]

/-- A look that finds enough is one more of those since the slots last fell short. -/
theorem sinceShortfall_append (h : l.isEnough = true) :
    sinceShortfall (looks ++ [l]) = sinceShortfall looks ++ [l] :=
  List.rtakeWhile_concat_pos _ _ _ h

/-- A look that finds enough but sees no more slots than `a`, which has set the timer, leaves it as
it is. -/
theorem arming?_append_of_le (h : l.isEnough = true) (ha : arming? looks = some a)
    (hle : l.slots ≤ a.slots) : arming? (looks ++ [l]) = some a := by
  unfold arming? at ha ⊢
  rw [sinceShortfall_append h, List.argmax_concat, ha]
  exact if_neg (Nat.not_lt.2 hle)

/-- A look that finds enough and sees more slots than the one that has set the timer sets it
anew. -/
theorem arming?_append_of_lt (h : l.isEnough = true)
    (hlt : ∀ a, arming? looks = some a → a.slots < l.slots) : arming? (looks ++ [l]) = some l := by
  unfold arming? at hlt ⊢
  rw [sinceShortfall_append h, List.argmax_concat]
  cases ha : (sinceShortfall looks).argmax Look.slots with
  | none => rfl
  | some a => exact if_pos (hlt a ha)

/-- All looks since `a`, which has set the timer, found enough slots, and not more of them than
`a`. -/
theorem exists_of_arming? (h : arming? looks = some a) :
    ∃ older later, looks = older ++ a :: later ∧
      ∀ l ∈ a :: later, l.isEnough = true ∧ l.slots ≤ a.slots := by
  unfold arming? at h
  obtain ⟨first, later, hsplit⟩ := List.append_of_mem (List.argmax_mem h)
  obtain ⟨short, hlooks⟩ : sinceShortfall looks <:+ looks := List.rtakeWhile_suffix _ _
  refine ⟨short ++ first, later, ?_, ?_⟩
  · rw [← hlooks, hsplit, List.append_assoc]
  · intro l hl
    have hmem : l ∈ sinceShortfall looks := by
      rw [hsplit]
      exact List.mem_append_right first hl
    exact ⟨List.mem_rtakeWhile_imp hmem, List.le_of_mem_argmax hmem h⟩

/-! ## What the controller remembers -/

/-- A look has set the timer. -/
structure Look.Arms (timeout : Duration) (l : Look) (timer : Stabilization) : Prop where
  /-- The timer fires after the timeout. -/
  deadline_eq : l.now.add timeout = .ok timer.deadline
  /-- It was armed at the slots that the look saw. -/
  slots_eq : timer.slots = l.slots

/-- When the job waits, it has waited since the period began, and the timer was set by the looks of the
period. -/
structure Recalls (settings : RescaleConfig) (period : WaitingPeriod) (c : RescaleController) :
    Prop where
  /-- The settings. -/
  settings_eq : c.settings = settings
  /-- The beginning of the period. -/
  since_eq : ∀ since target timer, c.phase = .waiting since target timer → since = period.since
  /-- The timer. -/
  timer : ∀ since target timer, c.phase = .waiting since target timer →
    Option.Rel (Look.Arms settings.stabilizationTimeout) (arming? period.looks) timer

variable {period : WaitingPeriod}

/-- A timer that is armed was set by one of the looks of the period, `arming? period.looks`. -/
theorem Recalls.exists_arming {since : Instant} {target : ParallelismPlan} {timer : Stabilization}
    (h : c.Recalls settings period) (hphase : c.phase = .waiting since target (some timer)) :
    ∃ a, arming? period.looks = some a ∧ a.Arms settings.stabilizationTimeout timer := by
  have hrel := h.timer _ _ _ hphase
  generalize arming? period.looks = a? at hrel
  cases hrel with
  | some harms => exact ⟨_, rfl, harms⟩

/-- Where the timer does not count at `n` slots, the look that set it saw fewer than `n`. -/
theorem Recalls.arming?_lt {old : Option Stabilization} {n : Nat} (h : c.Recalls settings period)
    (hphase : c.phase = .waiting since target old) (hunarmed : old.filter (n ≤ ·.slots) = none)
    (ha : arming? period.looks = some a) : a.slots < n := by
  have hrel := h.timer _ _ _ hphase
  rw [ha] at hrel
  cases hrel with
  | @some _ timer harms =>
    rw [← harms.slots_eq]
    simpa using hunarmed

/-- A look of a controller that remembers its period leaves one that remembers the period with that
look. -/
theorem Recalls.evaluated (h : d.Recalls settings period)
    (heval : d.evaluate now = .ok (action, c')) :
    c'.Recalls settings { period with looks := period.looks ++ (d.look? now).toList } := by
  have hevaluated := evaluate_eq_ok heval
  refine ⟨hevaluated.frame.2.1.trans h.settings_eq, ?_, ?_⟩
  · intro since target timer hphase
    obtain ⟨old, hold⟩ := hevaluated.waiting_before hphase
    exact h.since_eq _ _ _ hold
  · intro since target timer hphase
    obtain ⟨old, hold⟩ := hevaluated.waiting_before hphase
    have hlook : d.WaitingLook since target old now (d.evaluate now) := waitingLook_evaluate hold
    rw [heval] at hlook
    rw [look?_of_waiting hold]
    show Option.Rel _ (arming? (period.looks ++ [_])) timer
    cases hlook with
    | start | expire | giveUp | fire => cases hphase
    | disarm _ _ short =>
      cases hphase
      rw [arming?_append_of_short (decide_eq_false (Nat.not_le.2 short))]
      exact .none
    | keep _ _ enough armed =>
      cases hphase
      obtain ⟨rfl, hle⟩ := Option.filter_eq_some_iff.1 armed
      obtain ⟨a, ha, harms⟩ := h.exists_arming hold
      rw [arming?_append_of_le (decide_eq_true enough) ha (harms.slots_eq ▸ of_decide_eq_true hle)]
      exact .some harms
    | arm _ _ enough unarmed deadline_eq =>
      cases hphase
      rw [arming?_append_of_lt (decide_eq_true enough) fun a ha => h.arming?_lt hold unarmed ha]
      exact .some ⟨h.settings_eq ▸ deadline_eq, rfl⟩

/-- A change of the view leaves everything as it is remembered, and a restart begins a period with
no looks. -/
theorem Recalls.found (h : c.Recalls settings period) (hfound : c.found? now op = some d) :
    d.Recalls settings (if c.carriesOut op then { since := now, looks := [] } else period) := by
  cases op with
  | resourcesChanged => cases hfound; exact ⟨h.settings_eq, h.since_eq, h.timer⟩
  | poll => cases hfound; exact h
  | restarted =>
    by_cases hpending : ∃ request, c.phase = .evaluating request
    · obtain ⟨request, pending⟩ := hpending
      rw [found?_of_pending pending] at hfound
      cases hfound
      rw [if_pos (carriesOut_of_pending pending)]
      refine ⟨?_, ?_, ?_⟩
      · rw [awaitRestart, pending]
        exact h.settings_eq
      · intro since target timer hphase
        rw [phase_awaitRestart pending] at hphase
        cases hphase
        rfl
      · intro since target timer hphase
        rw [phase_awaitRestart pending] at hphase
        cases hphase
        exact .none
    · rw [found?_of_not_pending fun request pending => hpending ⟨request, pending⟩] at hfound
      cases hfound
  | track | untrack => cases hfound

/-- Every turn extends what is remembered by its look, as `period.extend` does. -/
theorem Recalls.turn (h : t.before.Recalls settings period) :
    t.after.Recalls settings (period.extend t) := by
  cases hfound : t.found? with
  | some d =>
    obtain ⟨action, -, heval⟩ := evaluate_of_found t.perform_eq hfound
    unfold WaitingPeriod.extend
    rw [t.look?_of_found hfound]
    exact (h.found hfound).evaluated heval
  | none =>
    obtain ⟨hrestarted, -, hphase⟩ := t.happened.of_not_found hfound
    have hextend : period.extend t = period := by
      unfold WaitingPeriod.extend WaitingPeriod.entered Turn.look? Turn.hasRestarted
      rw [hrestarted, hfound]
      simp
    rw [hextend]
    refine ⟨t.happened.settings_eq.trans h.settings_eq, ?_, ?_⟩
    · intro since target timer hafter
      obtain ⟨old, hbefore⟩ := hphase _ _ _ hafter
      exact h.since_eq _ _ _ hbefore
    · intro since target timer hafter
      obtain ⟨old, hbefore⟩ := hphase _ _ _ hafter
      exact h.timer _ _ _ hbefore

/-- After any turns a controller remembers the period that they have extended one after the
other. -/
theorem Linked.recalls (h : Linked c ts c') (hc : c.Recalls settings period) :
    c'.Recalls settings (ts.foldl WaitingPeriod.extend period) := by
  induction h generalizing period with
  | nil => exact hc
  | cons t rest ih => exact ih hc.turn

/-- A new controller remembers a period that begins at `start` and has no looks. -/
theorem Recalls.ofRequirements (settings : RescaleConfig)
    (requirements : Std.ExtTreeMap VertexId Requirement) (start : Instant) :
    (ofRequirements settings requirements start).Recalls settings { since := start, looks := [] } := by
  refine ⟨rfl, ?_, ?_⟩
  · intro since target timer hphase
    cases hphase
    rfl
  · intro since target timer hphase
    cases hphase
    exact .none

/-- Whenever a turn of a run looks at the resources, it finds a controller that remembers the looks
of the period before it, `periodAt start before t`. -/
theorem recalls_of_found {requirements : Std.ExtTreeMap VertexId Requirement}
    {calls : List (Instant × Operation)} {after : List Turn}
    (hrun : (ofRequirements settings requirements start).turns calls = before ++ t :: after)
    (hfound : t.found? = some d) : d.Recalls settings (periodAt start before t) := by
  obtain ⟨last, hlinked⟩ := linked_turns (ofRequirements settings requirements start) calls
  rw [hrun] at hlinked
  obtain ⟨c, hbefore, hrest⟩ := hlinked.of_append
  cases hrest with
  | cons _ _ => exact (hbefore.recalls (.ofRequirements settings requirements start)).found hfound

end AdaptiveBatch.RescaleController
