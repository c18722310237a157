import AdaptiveBatch.Proofs.Rescale.Periods

/-! # Reduced starts and the stabilization timer

A job starts with a reduced plan because its waiting time is over, or because the slots have sufficed and
not grown for the stabilization time. The second is a statement about all looks of the waiting period
since the timer was armed, of which the controller only remembers when and at how many slots that was.

More slots arm the timer again. They must be more than any look has seen since the slots last fell short:
slots that are lost and come back do not count.

* **`RescaleController.reduced_start_justified`** — why a job starts reduced;
* **`RescaleController.growth_rearms`** — which looks arm the timer and which leave it alone. -/

namespace AdaptiveBatch.RescaleController

variable {c' d : RescaleController} {settings : RescaleConfig} {start now since : Instant}
  {target plan : ParallelismPlan} {old timer : Option Stabilization} {period : WaitingPeriod}
  {requirements : Std.ExtTreeMap VertexId Requirement} {calls : List (Instant × Operation)}
  {before after : List Turn} {t : Turn} {last : Look}

/-! ## Reduced starts -/

/-- The looks of a period since an early one have all found enough slots, but no more than that one, and
the stabilization time has passed since it. -/
def Stabilized (timeout : Duration) (looks : List Look) (last : Look) : Prop :=
  ∃ older armed later, looks = older ++ armed :: later ∧
    armed.now.nanos + timeout.nanos ≤ last.now.nanos ∧
    ∀ l ∈ armed :: (later ++ [last]), l.required ≤ l.slots ∧ l.slots ≤ armed.slots

/-- A timer that is due tells that the slots are `Stabilized`: it was armed the timeout ago or
longer, and no look since then has seen more slots. -/
theorem Recalls.stabilized (h : d.Recalls settings period)
    (hphase : d.phase = .waiting since target old) {timer : Stabilization}
    (harmed : old.filter (d.view.slotCount ≤ ·.slots) = some timer) (hdue : timer.deadline ≤ now)
    (henough : d.requiredSlots ≤ d.view.slotCount) :
    Stabilized settings.stabilizationTimeout period.looks
      ⟨now, d.view.slotCount, d.requiredSlots, target.slots⟩ := by
  obtain ⟨rfl, hslots⟩ := Option.filter_eq_some_iff.1 harmed
  obtain ⟨armed, harming, harms⟩ := h.exists_arming hphase
  obtain ⟨older, later, hlooks, hall⟩ := exists_of_arming? harming
  refine ⟨older, armed, later, hlooks, ?_, ?_⟩
  · rw [← Instant.add_eq_ok_iff.1 harms.deadline_eq]
    exact hdue
  · intro l hl
    rw [← List.cons_append, List.mem_append] at hl
    rcases hl with hl | hl
    · exact ⟨Look.isEnough_iff.1 (hall l hl).1, (hall l hl).2⟩
    · cases List.mem_singleton.1 hl
      exact ⟨henough, harms.slots_eq ▸ of_decide_eq_true hslots⟩

/-- The waiting time is over only if it is bounded, and then `timeout` has passed since it began. -/
theorem le_of_waitIsOver (hsettings : d.settings = settings) (hover : d.waitIsOver since now = true)
    (hsince : since ≤ now) : ∃ timeout, settings.waitTimeout.duration? = some timeout ∧
      since.nanos + timeout.nanos ≤ now.nanos := by
  unfold waitIsOver at hover
  rw [hsettings, Option.any_eq_true] at hover
  obtain ⟨timeout, htimeout, hle⟩ := hover
  have hpassed : timeout.nanos ≤ now.nanos - since.nanos := of_decide_eq_true hle
  have hsince : since.nanos ≤ now.nanos := hsince
  exact ⟨timeout, htimeout, by omega⟩

/-- What must hold when a job starts with a reduced plan after its last look. -/
structure Justified (settings : RescaleConfig) (period : WaitingPeriod) (last : Look) : Prop where
  /-- There are slots enough for the most demanding vertex. -/
  enough : last.required ≤ last.slots
  /-- There are fewer than the plan takes for which the job has waited. -/
  tight : last.slots < last.wanted
  /-- The waiting time is bounded and over, or the slots are stable. -/
  due : (∃ timeout, settings.waitTimeout.duration? = some timeout ∧
      period.since.nanos + timeout.nanos ≤ last.now.nanos) ∨
    Stabilized settings.stabilizationTimeout period.looks last

/-- A reduced start is `Justified` by the looks of the period and the one that decides it. -/
theorem Recalls.justified (h : d.Recalls settings period) (hsince : period.since ≤ now)
    (heval : d.evaluate now = .ok (.start plan true, c')) :
    ∃ target timer last, d.phase = .waiting period.since target timer ∧ d.look? now = some last ∧
      Justified settings period last := by
  obtain ⟨since, target, old, hphase⟩ := (evaluate_eq_ok heval).waiting_of_start
  obtain rfl := h.since_eq _ _ _ hphase
  refine ⟨target, old, _, hphase, look?_of_waiting hphase, ?_⟩
  have hlook : d.WaitingLook period.since target old now (d.evaluate now) :=
    waitingLook_evaluate hphase
  rw [heval] at hlook
  cases hlook with
  | expire tight expired enough =>
    exact ⟨enough, tight, Or.inl (le_of_waitIsOver h.settings_eq expired hsince)⟩
  | fire tight _ enough armed due =>
    exact ⟨enough, tight, Or.inr (h.stabilized hphase armed due enough)⟩

/-- **A reduced start is justified.** When a job starts with a reduced plan, there are slots enough
for something to run, but not for the plan it has waited for. Either the waiting time is over, or
the period in which it has waited (`periodAt`) contains a look, the stabilization time ago or
longer, since which all looks have found enough slots and none more slots than that one
(`Justified`). -/
theorem reduced_start_justified
    (hrun : (ofRequirements settings requirements start).turns calls = before ++ t :: after)
    (hordered : InOrder start (before ++ [t])) (hstart : t.action = some (.start plan true)) :
    ∃ d target timer last, t.found? = some d ∧
      d.phase = .waiting (periodAt start before t).since target timer ∧ d.look? t.now = some last ∧
        Justified settings (periodAt start before t) last := by
  cases hfound : t.found? with
  | none => cases (t.happened.of_not_found hfound).2.1 _ hstart
  | some d =>
    obtain ⟨action, haction, heval⟩ := evaluate_of_found t.perform_eq hfound
    cases hstart.symm.trans haction
    obtain ⟨target, timer, last, hjustified⟩ :=
      (recalls_of_found hrun hfound).justified (since_periodAt_le hordered) heval
    exact ⟨d, target, timer, last, rfl, hjustified⟩

/-- A source that accepts two tasks and desires eight. -/
def sampleRange : Std.ExtTreeMap VertexId Requirement :=
  (∅ : Std.ExtTreeMap VertexId Requirement).insert "source" (.between 2 8)

/-- The slots grow, shrink again, and stay. -/
def sampleWait : List (Instant × Operation) :=
  [(sampleTime 0, .resourcesChanged (sampleView 3)),
    (sampleTime 6, .resourcesChanged (sampleView 5)),
    (sampleTime 8, .resourcesChanged (sampleView 4)), (sampleTime 16, .poll)]

/-- What the turns of `sampleWait` see, decide and leave behind. -/
theorem turns_sampleWait : ((ofRequirements ({} : Config).rescale sampleRange (sampleTime 0)).turns
    sampleWait).map (fun t => (t.now, t.hasRestarted, t.look?, t.action, t.after.phase)) =
      [(sampleTime 0, false, some ⟨sampleTime 0, 3, 2, 8⟩, some .idle,
          .waiting (sampleTime 0) (samplePlan 8) (some ⟨sampleTime 10, 3⟩)),
        (sampleTime 6, false, some ⟨sampleTime 6, 5, 2, 8⟩, some .idle,
          .waiting (sampleTime 0) (samplePlan 8) (some ⟨sampleTime 16, 5⟩)),
        (sampleTime 8, false, some ⟨sampleTime 8, 4, 2, 8⟩, some .idle,
          .waiting (sampleTime 0) (samplePlan 8) (some ⟨sampleTime 16, 5⟩)),
        (sampleTime 16, false, some ⟨sampleTime 16, 4, 2, 8⟩, some (.start (samplePlan 4) true),
          .running (sampleTime 16))] := by
  decide +kernel

/-- The sample `sampleWait` starts ten seconds after the look at five slots. -/
theorem reduced_start_justified_sample : ∃ before t last,
    (ofRequirements ({} : Config).rescale sampleRange (sampleTime 0)).turns sampleWait =
      before ++ [t] ∧
    t.action = some (.start (samplePlan 4) true) ∧ t.look? = some last ∧
      Stabilized (.ofSeconds 10) (periodAt (sampleTime 0) before t).looks last := by
  have hfacts := turns_sampleWait
  have hjustified (before : List Turn) (t : Turn) :=
    @reduced_start_justified ({} : Config).rescale (sampleTime 0) (samplePlan 4) sampleRange sampleWait
      before [] t
  generalize (ofRequirements ({} : Config).rescale sampleRange (sampleTime 0)).turns
    sampleWait = ts at hfacts hjustified
  obtain ⟨t₀, ts, rfl, h₀, hfacts⟩ := List.map_eq_cons_iff.1 hfacts
  obtain ⟨t₁, ts, rfl, h₁, hfacts⟩ := List.map_eq_cons_iff.1 hfacts
  obtain ⟨t₂, ts, rfl, h₂, hfacts⟩ := List.map_eq_cons_iff.1 hfacts
  obtain ⟨t₃, ts, rfl, h₃, hfacts⟩ := List.map_eq_cons_iff.1 hfacts
  cases List.map_eq_nil_iff.1 hfacts
  simp only [Prod.mk.injEq] at h₀ h₁ h₂ h₃
  have hordered : InOrder (sampleTime 0) ([t₀, t₁, t₂] ++ [t₃]) := by
    unfold InOrder
    simp only [List.cons_append, List.nil_append, List.map_cons, List.map_nil, h₀, h₁, h₂, h₃]
    decide
  have hsince : (periodAt (sampleTime 0) [t₀, t₁, t₂] t₃).since = sampleTime 0 := by
    simp [periodAt, WaitingPeriod.extend, WaitingPeriod.entered, h₀, h₁, h₂, h₃]
  obtain ⟨d, target, timer, last, hfound, -, hlook, hlast⟩ :=
    hjustified [t₀, t₁, t₂] t₃ rfl hordered h₃.2.2.2.1
  refine ⟨[t₀, t₁, t₂], t₃, last, rfl, h₃.2.2.2.1, (t₃.look?_of_found hfound).trans hlook, ?_⟩
  rcases hlast.due with ⟨timeout, hduration, hover⟩ | hstabilized
  · -- The waiting time of five minutes is not over.
    rw [hsince, now_of_look? hlook, h₃.1] at hover
    cases hduration
    exact absurd hover (by decide)
  · exact hstabilized

/-! ## Looks that arm the timer -/

/-- After a look at enough slots, a job that waits on has a timer. If the look has seen more slots than all
others since the slots last fell short, it has armed the timer. If not, the timer is the one it has
found. -/
theorem Recalls.rearmed (h : d.Recalls settings period) (hlook : d.look? now = some last)
    (henough : last.required ≤ last.slots) (heval : d.evaluate now = .ok (action, c'))
    (hwaits : c'.phase = .waiting since target timer) :
    ((∀ l ∈ sinceShortfall period.looks, l.slots < last.slots) →
      ∃ armed, timer = some armed ∧ last.Arms settings.stabilizationTimeout armed) ∧
    ((∃ l ∈ sinceShortfall period.looks, last.slots ≤ l.slots) →
      d.phase = .waiting since target timer) := by
  obtain ⟨old, hphase⟩ := (evaluate_eq_ok heval).waiting_before hwaits
  cases hlook.symm.trans (look?_of_waiting hphase)
  have houtcome : d.WaitingLook since target old now (d.evaluate now) := waitingLook_evaluate hphase
  rw [heval] at houtcome
  cases houtcome with
  | start | expire | giveUp | fire => cases hwaits
  | disarm _ _ short => exact absurd henough (Nat.not_le.2 short)
  | keep _ _ _ armed =>
    cases hwaits
    obtain ⟨rfl, hslots⟩ := Option.filter_eq_some_iff.1 armed
    obtain ⟨a, harming, harms⟩ := h.exists_arming hphase
    have hle : d.view.slotCount ≤ a.slots := harms.slots_eq ▸ of_decide_eq_true hslots
    exact ⟨fun hmore => absurd hle (Nat.not_le.2 (hmore a (List.argmax_mem harming))),
      fun _ => hphase⟩
  | arm _ _ _ unarmed deadline_eq =>
    cases hwaits
    refine ⟨fun _ => ⟨_, rfl, h.settings_eq ▸ deadline_eq, rfl⟩, ?_⟩
    rintro ⟨l, hl, hle⟩
    -- The look with the most slots has seen at least as many.
    cases harming : arming? period.looks with
    | none => rw [List.argmax_eq_none.1 harming] at hl; cases hl
    | some a =>
      have hmost : l.slots ≤ a.slots := List.le_of_mem_argmax hl harming
      have hfewer : a.slots < d.view.slotCount := h.arming?_lt hphase unarmed harming
      exact absurd (Nat.le_trans hle hmost) (Nat.not_le.2 hfewer)

/-- **More slots arm the timer again.** When a job looks at enough slots and waits on, and there are
more of them than all the looks of its waiting period have seen since the slots last fell short
(`sinceShortfall`), then the timer fires `stabilizationTimeout` from now. When there are no more
than one of these looks has seen, the timer is the one found there, and fires when it would have
done so before. -/
theorem growth_rearms
    (hrun : (ofRequirements settings requirements start).turns calls = before ++ t :: after)
    (hlook : t.look? = some last) (henough : last.required ≤ last.slots)
    (hwaits : t.after.phase = .waiting since target timer) :
    ((∀ l ∈ sinceShortfall (periodAt start before t).looks, l.slots < last.slots) →
      ∃ armed, timer = some armed ∧
        armed.deadline.nanos = t.now.nanos + settings.stabilizationTimeout.nanos) ∧
    ((∃ l ∈ sinceShortfall (periodAt start before t).looks, last.slots ≤ l.slots) →
      ∃ d, t.found? = some d ∧ d.phase = .waiting since target timer) := by
  obtain ⟨d, hfound, hsees⟩ := Turn.exists_found hlook
  obtain ⟨action, -, heval⟩ := evaluate_of_found t.perform_eq hfound
  obtain ⟨hmore, hsame⟩ := (recalls_of_found hrun hfound).rearmed hsees henough heval hwaits
  refine ⟨?_, fun hfewer => ⟨d, hfound, hsame hfewer⟩⟩
  intro hgrown
  obtain ⟨armed, harmed, harms⟩ := hmore hgrown
  rw [← now_of_look? hsees]
  exact ⟨armed, harmed, Instant.add_eq_ok_iff.1 harms.deadline_eq⟩

/-- The second look of `sampleWait`, at five slots instead of three, arms the timer. -/
theorem growth_rearms_sample : ∃ first second after last armed,
    (ofRequirements ({} : Config).rescale sampleRange (sampleTime 0)).turns sampleWait =
      [first] ++ second :: after ∧
    second.look? = some last ∧ last.required ≤ last.slots ∧
    (∀ l ∈ sinceShortfall (periodAt (sampleTime 0) [first] second).looks, l.slots < last.slots) ∧
    second.after.phase = .waiting (sampleTime 0) (samplePlan 8) (some armed) ∧
      armed.deadline.nanos = (sampleTime 6).nanos + (Duration.ofSeconds 10).nanos := by
  have hfacts := turns_sampleWait
  have hrearms (before after : List Turn) (t : Turn) :=
    @growth_rearms ({} : Config).rescale (sampleTime 0) (sampleTime 0) (samplePlan 8)
      (some ⟨sampleTime 16, 5⟩) sampleRange sampleWait before after t ⟨sampleTime 6, 5, 2, 8⟩
  generalize (ofRequirements ({} : Config).rescale sampleRange (sampleTime 0)).turns
    sampleWait = ts at hfacts hrearms
  obtain ⟨t₀, ts, rfl, h₀, hfacts⟩ := List.map_eq_cons_iff.1 hfacts
  obtain ⟨t₁, ts, rfl, h₁, -⟩ := List.map_eq_cons_iff.1 hfacts
  simp only [Prod.mk.injEq] at h₀ h₁
  have hlooks : sinceShortfall (periodAt (sampleTime 0) [t₀] t₁).looks =
      [⟨sampleTime 0, 3, 2, 8⟩] := by
    simp only [periodAt, List.foldl_cons, List.foldl_nil, WaitingPeriod.extend, WaitingPeriod.entered,
      h₀, h₁]
    decide
  have hgrown : ∀ l ∈ sinceShortfall (periodAt (sampleTime 0) [t₀] t₁).looks, l.slots < 5 := by
    rw [hlooks]
    decide
  obtain ⟨armed, harmed, hdeadline⟩ :=
    (hrearms [t₀] ts t₁ rfl h₁.2.2.1 (by decide) h₁.2.2.2.2).1 hgrown
  rw [h₁.1] at hdeadline
  exact ⟨t₀, t₁, ts, _, armed, rfl, h₁.2.2.1, by decide, hgrown, harmed ▸ h₁.2.2.2.2, hdeadline⟩

/-- The slots shrink and grow again, but to no more than there have been. -/
def sampleRegrowth : List (Instant × Operation) :=
  [(sampleTime 0, .resourcesChanged (sampleView 5)),
    (sampleTime 2, .resourcesChanged (sampleView 3)),
    (sampleTime 4, .resourcesChanged (sampleView 4))]

/-- More slots than the look before has seen do not suffice to arm the timer again: of `5`, `3` and
`4` slots the last ones are more than those before, but not more than the first ones. -/
theorem regrowth_keeps_deadline : ∃ before t previous last armed,
    (ofRequirements ({} : Config).rescale sampleRange (sampleTime 0)).turns sampleRegrowth =
      before ++ [t] ∧
    (periodAt (sampleTime 0) before t).looks.getLast? = some previous ∧ t.look? = some last ∧
    previous.slots < last.slots ∧ last.required ≤ last.slots ∧
    t.after.phase = .waiting (sampleTime 0) (samplePlan 8) (some armed) ∧
      armed.deadline.nanos ≠
        t.now.nanos + ({} : Config).rescale.stabilizationTimeout.nanos := by
  have hfacts : ((ofRequirements ({} : Config).rescale sampleRange (sampleTime 0)).turns
      sampleRegrowth).map (fun t => (t.now, t.hasRestarted, t.look?, t.after.phase)) =
        [(sampleTime 0, false, some ⟨sampleTime 0, 5, 2, 8⟩,
            .waiting (sampleTime 0) (samplePlan 8) (some ⟨sampleTime 10, 5⟩)),
          (sampleTime 2, false, some ⟨sampleTime 2, 3, 2, 8⟩,
            .waiting (sampleTime 0) (samplePlan 8) (some ⟨sampleTime 10, 5⟩)),
          (sampleTime 4, false, some ⟨sampleTime 4, 4, 2, 8⟩,
            .waiting (sampleTime 0) (samplePlan 8) (some ⟨sampleTime 10, 5⟩))] := by
    decide +kernel
  obtain ⟨t₀, ts, hts, h₀, hfacts⟩ := List.map_eq_cons_iff.1 hfacts
  obtain ⟨t₁, ts, rfl, h₁, hfacts⟩ := List.map_eq_cons_iff.1 hfacts
  obtain ⟨t₂, ts, rfl, h₂, hfacts⟩ := List.map_eq_cons_iff.1 hfacts
  cases List.map_eq_nil_iff.1 hfacts
  simp only [Prod.mk.injEq] at h₀ h₁ h₂
  have hprevious : (periodAt (sampleTime 0) [t₀, t₁] t₂).looks.getLast? =
      some ⟨sampleTime 2, 3, 2, 8⟩ := by
    simp only [periodAt, List.foldl_cons, List.foldl_nil, WaitingPeriod.extend, WaitingPeriod.entered,
      h₀, h₁, h₂]
    decide
  refine ⟨[t₀, t₁], t₂, _, _, _, hts, hprevious, h₂.2.2.1, by decide, by decide, h₂.2.2.2, ?_⟩
  rw [h₂.1]
  decide

end AdaptiveBatch.RescaleController
