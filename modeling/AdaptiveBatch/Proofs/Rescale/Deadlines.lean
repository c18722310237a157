import AdaptiveBatch.Proofs.Rescale.Stabilization

/-! # Looks after an idle look

When a look has decided nothing, the job waits on. From then on only the time matters: until the view or
the vertices change, the next look starts the job or gives up as soon as the waiting time is over or the timer
fires, and decides nothing before.

* **`RescaleController.Rests`** — the state that an idle look leaves behind, and what the next look does
  (**`RescaleController.Rests.evaluate_eq`**);
* **`RescaleController.idle_look_repeats`** — a second look at the same time decides nothing either, unless
  the timer needs no time;
* **`RescaleController.nextDeadline_exact`** — the time until something happens is the one that the
  controller tells. -/

namespace AdaptiveBatch.RescaleController

variable {c c' d : RescaleController} {settings : RescaleConfig} {start now since : Instant}
  {target : ParallelismPlan} {old timer : Option Stabilization} {view : ResourceView}
  {requirements : Std.ExtTreeMap VertexId Requirement} {calls : List (Instant × Operation)}
  {before after : List Turn} {t : Turn}

/-- A job waits on after a look at its view: its plan does not fit, and the timer is armed exactly if
something can run, at no fewer slots than there are. -/
structure Rests (c : RescaleController) (since : Instant) (target : ParallelismPlan)
    (timer : Option Stabilization) : Prop where
  /-- It waits. -/
  phase_eq : c.phase = .waiting since target timer
  /-- The plan does not fit. -/
  tight : c.view.slotCount < target.slots
  /-- The timer of a job that can run in part. -/
  armed : c.requiredSlots ≤ c.view.slotCount →
    ∃ stabilization, timer = some stabilization ∧ c.view.slotCount ≤ stabilization.slots
  /-- There is none if it cannot run. -/
  unarmed : c.view.slotCount < c.requiredSlots → timer = none

/-- A job that rests and can run in part has its timer armed, and the slots have not outgrown it. -/
theorem Rests.filter_ne_none (h : c.Rests since target timer)
    (henough : c.requiredSlots ≤ c.view.slotCount) :
    timer.filter (c.view.slotCount ≤ ·.slots) ≠ none := by
  obtain ⟨stabilization, rfl, hle⟩ := h.armed henough
  simpa using hle

/-- What a later look of a job that waits on leads to. -/
def nextAnswer (c : RescaleController) (since : Instant) (target : ParallelismPlan)
    (timer : Option Stabilization) (later : Instant) : RescaleAction × RescaleController :=
  if c.waitIsOver since later then
    if c.requiredSlots ≤ c.view.slotCount then c.start (c.reduce target) true later
    else c.giveUp
  else if timer.any (·.deadline ≤ later) then c.start (c.reduce target) true later
  else (.idle, c)

/-- A later look of a job that rests leads to `nextAnswer`. -/
theorem Rests.evaluate_eq (h : c.Rests since target timer) (later : Instant) :
    c.evaluate later = .ok (c.nextAnswer since target timer later) := by
  unfold nextAnswer
  have hlook : c.WaitingLook since target timer later (c.evaluate later) :=
    waitingLook_evaluate h.phase_eq
  have hself (s : Option Stabilization) (hs : timer = s) :
      ({ c with phase := .waiting since target s } : RescaleController) = c := by
    rw [← hs, ← h.phase_eq]
  generalize c.evaluate later = outcome at hlook ⊢
  cases hlook with
  | start fits => exact absurd fits (Nat.not_le.2 h.tight)
  | expire _ expired enough => rw [if_pos expired, if_pos enough]
  | giveUp _ expired short => rw [if_pos expired, if_neg (Nat.not_le.2 short)]
  | disarm _ inTime short =>
    rw [if_neg (Bool.eq_false_iff.1 inTime), hself none (h.unarmed short), h.unarmed short]
    rfl
  | fire _ inTime _ armed due =>
    obtain ⟨rfl, -⟩ := Option.filter_eq_some_iff.1 armed
    rw [if_neg (Bool.eq_false_iff.1 inTime), if_pos (by simpa using due)]
  | keep _ inTime _ armed early =>
    obtain ⟨rfl, -⟩ := Option.filter_eq_some_iff.1 armed
    rw [if_neg (Bool.eq_false_iff.1 inTime), hself _ rfl, if_neg (by simpa using early)]
  | arm _ _ enough unarmed => exact absurd unarmed (h.filter_ne_none enough)
  | abandoned _ _ enough unarmed => exact absurd unarmed (h.filter_ne_none enough)

/-- An idle look of a job that waits leaves it so that it `Rests`. The timer has not fired, unless
it was armed by this look and needs no time. -/
theorem rests_of_idle (hphase : c.phase = .waiting since target old)
    (heval : c.evaluate now = .ok (.idle, c')) :
    ∃ timer, c'.Rests since target timer ∧ c'.waitIsOver since now = false ∧
      ∀ stabilization, timer = some stabilization →
        ¬stabilization.deadline ≤ now ∨
          now.add c'.settings.stabilizationTimeout = .ok stabilization.deadline ∧
            stabilization.slots = c'.view.slotCount := by
  have hlook : c.WaitingLook since target old now (c.evaluate now) := waitingLook_evaluate hphase
  rw [heval] at hlook
  cases hlook with
  | disarm tight inTime short =>
    exact ⟨none, ⟨rfl, tight, fun enough => absurd enough (Nat.not_le.2 short), fun _ => rfl⟩, inTime,
      nofun⟩
  | @keep stabilization tight inTime enough armed early =>
    have hle := of_decide_eq_true (Option.filter_eq_some_iff.1 armed).2
    refine ⟨some stabilization, ⟨rfl, tight, fun _ => ⟨_, rfl, hle⟩,
      fun short => absurd enough (Nat.not_le.2 short)⟩, inTime, ?_⟩
    rintro _ ⟨⟩
    exact Or.inl early
  | arm tight inTime enough unarmed deadline_eq =>
    refine ⟨_, ⟨rfl, tight, fun _ => ⟨_, rfl, Nat.le_refl _⟩,
      fun short => absurd enough (Nat.not_le.2 short)⟩, inTime, ?_⟩
    rintro _ ⟨⟩
    exact Or.inr ⟨deadline_eq, rfl⟩

/-! ## A second look at the same time -/

/-- What another look at the same view at the same time leads to, as a change of the view or as a poll. -/
inductive SecondLook (c : RescaleController) (view : ResourceView) (now : Instant) : Prop
  /-- It decides nothing and changes nothing. -/
  | same (changed : c.resourcesChanged view now = .ok (.idle, c))
      (polled : c.evaluate now = .ok (.idle, c))
  /-- The first look has armed a timer that needs no time, and the second one fires it. -/
  | fires {since : Instant} {target : ParallelismPlan}
      (immediate : c.settings.stabilizationTimeout = .zero)
      (armed : c.phase =
        .waiting since target (some { deadline := now, slots := view.slotCount }))
      (changed : c.resourcesChanged view now = .ok (c.start (c.reduce target) true now))
      (polled : c.evaluate now = .ok (c.start (c.reduce target) true now))

/-- The view that is looked at is already there: announcing it again is the same as `c.evaluate`. -/
theorem resourcesChanged_view (h : c.view = view) :
    c.resourcesChanged view now = c.evaluate now := by
  rw [← h]
  rfl

/-- A job that rests, with its waiting time not over and its timer not due before this look, takes a
second look as `SecondLook` says. -/
theorem Rests.secondLook (h : c.Rests since target timer) (hinTime : c.waitIsOver since now = false)
    (harmed : ∀ stabilization, timer = some stabilization → ¬stabilization.deadline ≤ now ∨
      now.add c.settings.stabilizationTimeout = .ok stabilization.deadline ∧
        stabilization.slots = c.view.slotCount) :
    c.SecondLook c.view now := by
  have hchanged : c.resourcesChanged c.view now = c.evaluate now := resourcesChanged_view rfl
  have hpolled := h.evaluate_eq now
  rw [nextAnswer, if_neg (by rw [hinTime]; exact Bool.false_ne_true)] at hpolled
  cases hfired : timer.any (·.deadline ≤ now) with
  | false =>
    rw [if_neg (by rw [hfired]; exact Bool.false_ne_true)] at hpolled
    exact .same (hchanged.trans hpolled) hpolled
  | true =>
    rw [if_pos hfired] at hpolled
    obtain ⟨stabilization, rfl, hdue⟩ := (Option.any_eq_true _ _).1 hfired
    have hdue : stabilization.deadline ≤ now := of_decide_eq_true hdue
    rcases harmed stabilization rfl with hearly | ⟨hnew, hslots⟩
    · exact absurd hdue hearly
    · -- The deadline is not later than the time at which it was set.
      have hsum := Instant.add_eq_ok_iff.1 hnew
      have hle : stabilization.deadline.nanos ≤ now.nanos := hdue
      have hdeadline : stabilization.deadline = now := Instant.ext (by omega)
      have hzero : c.settings.stabilizationTimeout = .zero :=
        Duration.ext (show c.settings.stabilizationTimeout.nanos = 0 by omega)
      have hphase : c.phase =
          .waiting since target (some { deadline := now, slots := c.view.slotCount }) := by
        rw [h.phase_eq, ← hdeadline, ← hslots]
      exact .fires hzero hphase (hchanged.trans hpolled) hpolled

/-- After an idle look, the next one at the same time `now` is a `SecondLook`. -/
theorem secondLook_of_idle (heval : c.evaluate now = .ok (.idle, c')) : c'.SecondLook c'.view now := by
  by_cases hwaits : ∃ since target old, c.phase = .waiting since target old
  · obtain ⟨since, target, old, hphase⟩ := hwaits
    obtain ⟨timer, hrests, hinTime, harmed⟩ := rests_of_idle hphase heval
    exact hrests.secondLook hinTime harmed
  · obtain rfl : c' = c := (evaluate_eq_ok heval).eq_of_idle fun since target old hphase =>
      hwaits ⟨since, target, old, hphase⟩
    exact .same ((resourcesChanged_view rfl).trans heval) heval

/-- **An idle look can be repeated.** When a look has decided nothing (`.idle`), a second look at
the same view at the same time decides nothing either and leaves the controller as it is, whether
the view is announced again or the controller is polled. The only exception is a timer that needs no
time: the look that arms it decides nothing, and the next one starts the job (`SecondLook`). -/
theorem idle_look_repeats (c : RescaleController) (view : ResourceView) (now : Instant) :
    (∀ c', c.resourcesChanged view now = .ok (.idle, c') → c'.SecondLook view now) ∧
      ∀ c', c.evaluate now = .ok (.idle, c') → c'.SecondLook c.view now := by
  constructor
  · intro c' heval
    have hview : c'.view = view := (evaluate_eq_ok heval).frame.1
    exact hview ▸ secondLook_of_idle heval
  · intro c' heval
    have hview : c'.view = c.view := (evaluate_eq_ok heval).frame.1
    exact hview ▸ secondLook_of_idle heval

/-- At three slots the sample is `.idle`, and remains so when it is told of them again or polled. -/
theorem idle_look_repeats_sample : ∃ c',
    (ofRequirements ({} : Config).rescale sampleRange (sampleTime 0)).resourcesChanged
      (sampleView 3) (sampleTime 0) = .ok (.idle, c') ∧
    c'.resourcesChanged (sampleView 3) (sampleTime 0) = .ok (.idle, c') ∧
      c'.evaluate (sampleTime 0) = .ok (.idle, c') := by
  have hidle : ((ofRequirements ({} : Config).rescale sampleRange (sampleTime 0)).resourcesChanged
      (sampleView 3) (sampleTime 0)).toOption.map (·.1) = some .idle := by
    decide +kernel
  cases heval : (ofRequirements ({} : Config).rescale sampleRange (sampleTime 0)).resourcesChanged
      (sampleView 3) (sampleTime 0) with
  | error o => rw [heval] at hidle; cases hidle
  | ok answer =>
    obtain ⟨action, c'⟩ := answer
    rw [heval] at hidle
    obtain rfl : action = .idle := Option.some.inj hidle
    refine ⟨c', rfl, ?_⟩
    cases (idle_look_repeats _ _ _).1 c' heval with
    | same changed polled => exact ⟨changed, polled⟩
    | fires immediate =>
      rw [(evaluate_eq_ok heval).frame.2.1] at immediate
      exact absurd immediate (by decide)

/-- Settings with a timer that needs no time. -/
def sampleImmediate : Config := { rescale := { stabilizationTimeout := .zero } }

/-- With the settings `sampleImmediate`, which are valid and have a stabilization timeout of zero,
the second of two looks at the same three slots at the same time starts the job, although the first
one is `idle`. -/
theorem second_look_starts : sampleImmediate.validate = .ok () ∧
    ((ofRequirements sampleImmediate.rescale sampleRange (sampleTime 0)).turns
      [(sampleTime 0, .resourcesChanged (sampleView 3)),
        (sampleTime 0, .resourcesChanged (sampleView 3))]).map (·.action) =
      [some .idle, some (.start (samplePlan 3) true)] := by
  constructor
  · have hok : sampleImmediate.validate.isOk = true := by decide +kernel
    cases h : sampleImmediate.validate with
    | ok u => rfl
    | error e => rw [h] at hok; cases hok
  · decide +kernel

/-! ## The time until something happens -/

/-- A later look is `.idle` as long as neither the waiting time is over nor the timer has fired. -/
theorem nextAnswer_eq_idle_iff (later : Instant) :
    (c.nextAnswer since target timer later).1 = .idle ↔
      c.waitIsOver since later = false ∧ timer.any (·.deadline ≤ later) = false := by
  unfold nextAnswer
  split
  · next hover => split <;> simp [hover, RescaleController.start, giveUp]
  · next hinTime =>
    split
    · next hfired => simp [hfired, RescaleController.start]
    · next hearly => simp [Bool.eq_false_iff.2 hinTime, Bool.eq_false_iff.2 hearly]

/-- The time until the first of two alarms. -/
def untilFirst (now : Instant) (a? b? : Option Instant) : Option Duration :=
  match a?.map (·.since now), b?.map (·.since now) with
  | some a, some b => some (min a b)
  | a, b => a.or b

/-- The time `untilFirst` is over when one of the alarms `a?` and `b?` goes off. -/
theorem before_untilFirst_iff {a? b? : Option Instant} {later : Instant}
    (ha : ∀ a, a? = some a → now ≤ a) (hb : ∀ b, b? = some b → now ≤ b) :
    (untilFirst now a? b? = none ∨ ∃ next, untilFirst now a? b? = some next ∧
        later.nanos < now.nanos + next.nanos) ↔
      (∀ a, a? = some a → ¬a ≤ later) ∧ ∀ b, b? = some b → ¬b ≤ later := by
  have hbefore {a : Instant} (hle : now ≤ a) :
      later.nanos < now.nanos + (a.since now).nanos ↔ ¬a ≤ later := by
    have hle : now.nanos ≤ a.nanos := hle
    show later.nanos < now.nanos + (a.nanos - now.nanos) ↔ ¬a.nanos ≤ later.nanos
    omega
  have hmin (d e : Duration) : later.nanos < now.nanos + (min d e).nanos ↔
      later.nanos < now.nanos + d.nanos ∧ later.nanos < now.nanos + e.nanos := by
    show later.nanos < now.nanos + (if d ≤ e then d else e).nanos ↔ _
    split
    · next hle => rw [Duration.le_iff] at hle; omega
    · next hlt => rw [Duration.le_iff] at hlt; omega
  cases a? with
  | none =>
    cases b? with
    | none => simp [untilFirst]
    | some b => simp [untilFirst, hbefore (hb b rfl)]
  | some a =>
    cases b? with
    | none => simp [untilFirst, hbefore (ha a rfl)]
    | some b => simp [untilFirst, hmin, hbefore (ha a rfl), hbefore (hb b rfl)]

/-- The end of the waiting time, if there is one, lies before the end of the clock. -/
def Expires (settings : RescaleConfig) (since : Instant) : Prop :=
  ∀ timeout, settings.waitTimeout.duration? = some timeout →
    since.nanos + timeout.nanos < Instant.limit

/-- The next deadline is the end of the waiting time, if it `Expires`, or the deadline of the
timer. -/
theorem nextDeadline?_eq (now : Instant) (hphase : c.phase = .waiting since target timer)
    (hclock : Expires c.settings since) :
    ∃ expiry? : Option Instant,
      c.nextDeadline? now = .ok (untilFirst now expiry? (timer.map (·.deadline))) ∧
      ∀ later, since ≤ later →
        (c.waitIsOver since later = false ↔ ∀ expiry, expiry? = some expiry → ¬expiry ≤ later) := by
  unfold nextDeadline? waitIsOver
  rw [hphase]
  cases hduration : c.settings.waitTimeout.duration? with
  | none => exact ⟨none, by cases timer <;> rfl, fun _ _ => by simp⟩
  | some timeout =>
    let expiry : Instant := ⟨since.nanos + timeout.nanos, hclock timeout hduration⟩
    have hadd : since.add timeout = .ok expiry := Instant.add_eq_ok_iff.2 rfl
    refine ⟨some expiry, ?_, ?_⟩
    · simp only [hadd]
      cases timer <;> rfl
    · intro later hlater
      have hpassed : timeout ≤ later.since since ↔ expiry ≤ later := by
        show timeout.nanos ≤ later.nanos - since.nanos ↔ since.nanos + timeout.nanos ≤ later.nanos
        have hle : since.nanos ≤ later.nanos := hlater
        omega
      simp [hpassed]

/-- A job that waits on, and whose alarms have not gone off before, does so until
`nextDeadline?`. -/
theorem Rests.idle_iff_before_deadline (h : c.Rests since target timer) (hsince : since ≤ now)
    (hinTime : c.waitIsOver since now = false)
    (harmed : ∀ stabilization, timer = some stabilization → now ≤ stabilization.deadline)
    (hclock : Expires c.settings since) :
    ∃ next?, c.nextDeadline? now = .ok next? ∧ ∀ later, now ≤ later →
      ((c.nextAnswer since target timer later).1 = .idle ↔
        next? = none ∨ ∃ next, next? = some next ∧ later.nanos < now.nanos + next.nanos) := by
  obtain ⟨expiry?, hnext, hexpiry⟩ := nextDeadline?_eq now h.phase_eq hclock
  refine ⟨_, hnext, ?_⟩
  intro later hlater
  have hfires : timer.any (·.deadline ≤ later) = false ↔
      ∀ deadline, timer.map (·.deadline) = some deadline → ¬deadline ≤ later := by
    cases timer <;> simp
  rw [nextAnswer_eq_idle_iff, hexpiry later (Nat.le_trans hsince hlater), hfires]
  refine (before_untilFirst_iff ?_ ?_).symm
  · intro expiry heq
    exact Nat.le_of_not_le ((hexpiry now hsince).1 hinTime expiry heq)
  · intro deadline heq
    obtain ⟨stabilization, hsome, rfl⟩ := Option.map_eq_some_iff.1 heq
    exact harmed stabilization hsome

/-- **The next deadline is exact.** When a look has decided nothing and the job waits on, then, as
long as neither the view nor the vertices change, polls are `idle` before the next deadline that
`nextDeadline?` tells, and all of them start the job or give up from then on. Without a deadline
they never do. -/
theorem nextDeadline_exact
    (hrun : (ofRequirements settings requirements start).turns calls = before ++ t :: after)
    (hordered : InOrder start (before ++ [t])) (hfound : t.found? = some d)
    (hidle : t.action = some .idle) (hwaits : t.after.phase = .waiting since target timer)
    (hclock : Expires settings since) :
    ∃ next?, t.after.nextDeadline? t.now = .ok next? ∧ ∀ later, t.now ≤ later →
      ∃ action c', t.after.evaluate later = .ok (action, c') ∧
        (action = .idle ↔
          next? = none ∨ ∃ next, next? = some next ∧ later.nanos < t.now.nanos + next.nanos) := by
  obtain ⟨action, haction, heval⟩ := evaluate_of_found t.perform_eq hfound
  cases hidle.symm.trans haction
  obtain ⟨old, hphase⟩ := (evaluate_eq_ok heval).waiting_before hwaits
  have hrecalls := recalls_of_found hrun hfound
  have hsince : since ≤ t.now := by
    rw [hrecalls.since_eq _ _ _ hphase]
    exact since_periodAt_le hordered
  have hsettings : t.after.settings = settings :=
    (evaluate_eq_ok heval).frame.2.1.trans hrecalls.settings_eq
  obtain ⟨timer', hrests, hinTime, harmed⟩ := rests_of_idle hphase heval
  obtain rfl : timer = timer' := by
    rw [hrests.phase_eq] at hwaits
    cases hwaits
    rfl
  obtain ⟨next?, hnext, hexact⟩ := hrests.idle_iff_before_deadline hsince hinTime
    (fun stabilization heq => by
      rcases harmed stabilization heq with hearly | ⟨hnew, -⟩
      · exact Nat.le_of_not_le hearly
      · exact Nat.le_of_add_right_le (Instant.add_eq_ok_iff.1 hnew).ge)
    (hsettings ▸ hclock)
  refine ⟨next?, hnext, ?_⟩
  intro later hlater
  exact ⟨_, _, hrests.evaluate_eq later, hexact later hlater⟩

/-- The second look of `sampleWait` arms the timer for ten seconds, and polls are idle until
then. -/
theorem nextDeadline_exact_sample : ∃ first second after,
    (ofRequirements ({} : Config).rescale sampleRange (sampleTime 0)).turns sampleWait =
      [first] ++ second :: after ∧
    second.after.nextDeadline? (sampleTime 6) = .ok (some (.ofSeconds 10)) ∧
    ∀ later, sampleTime 6 ≤ later → ∃ action c', second.after.evaluate later = .ok (action, c') ∧
      (action = .idle ↔ later.nanos < (sampleTime 16).nanos) := by
  have hfacts := turns_sampleWait
  have hdeadlines : ((ofRequirements ({} : Config).rescale sampleRange (sampleTime 0)).turns
      sampleWait).map (fun t => (t.after.nextDeadline? t.now).toOption) =
      [some (some (.ofSeconds 10)), some (some (.ofSeconds 10)), some (some (.ofSeconds 8)),
        some none] := by
    decide +kernel
  have hexact (before after : List Turn) (t : Turn) (d : RescaleController) :=
    @nextDeadline_exact d ({} : Config).rescale (sampleTime 0) (sampleTime 0) (samplePlan 8)
      (some ⟨sampleTime 16, 5⟩) sampleRange sampleWait before after t
  generalize (ofRequirements ({} : Config).rescale sampleRange (sampleTime 0)).turns
    sampleWait = ts at hfacts hdeadlines hexact
  obtain ⟨t₀, ts, rfl, h₀, hfacts⟩ := List.map_eq_cons_iff.1 hfacts
  obtain ⟨t₁, ts, rfl, h₁, -⟩ := List.map_eq_cons_iff.1 hfacts
  simp only [Prod.mk.injEq] at h₀ h₁
  simp only [List.map_cons, List.cons.injEq] at hdeadlines
  obtain ⟨-, hdeadline, -⟩ := hdeadlines
  obtain ⟨hnow, -, hlook, hidle, hwaits⟩ := h₁
  obtain ⟨d, hfound, -⟩ := Turn.exists_found hlook
  have hordered : InOrder (sampleTime 0) ([t₀] ++ [t₁]) := by
    unfold InOrder
    simp only [List.cons_append, List.nil_append, List.map_cons, List.map_nil, h₀.1, hnow]
    decide
  have hclock : Expires ({} : Config).rescale (sampleTime 0) := by
    rintro timeout ⟨⟩
    decide
  obtain ⟨next?, hnext, hpolls⟩ := hexact [t₀] ts t₁ d rfl hordered hfound hidle hwaits hclock
  rw [hnext] at hdeadline
  obtain rfl : next? = some (.ofSeconds 10) := Option.some.inj hdeadline
  rw [hnow] at hnext hpolls
  refine ⟨t₀, t₁, ts, rfl, hnext, ?_⟩
  intro later hlater
  obtain ⟨action, c', heval, hiff⟩ := hpolls later hlater
  refine ⟨action, c', heval, hiff.trans ?_⟩
  simp only [reduceCtorEq, false_or, Option.some.injEq, exists_eq_left']
  rfl

end AdaptiveBatch.RescaleController
