import AdaptiveBatch.Proofs.Scheduler.Unrefused

/-! # The course of a job through its calls

Where a job stands is decided by looks at the resources, and a call looks at them at most once,
directly after its opening; in its place a tick looks for slow attempts. So a call takes a job into
the running phase only by a look that starts it, and the time of the last such call is the time
since which the job runs.

* **`Scheduler.SameCourse`** — what passes, launches and failures leave alone;
* **`Scheduler.Decides`**, **`Scheduler.after_course`** — a call opens, then decides at most one
  thing, and stays on its course;
* **`Scheduler.starts`** — the times of the calls that have taken a job into the running phase;
* **`Scheduler.runningSince_run`** — the last of them is remembered. -/

namespace AdaptiveBatch

/-- Whether a job runs, without a restart asked for. -/
def RescalePhase.isRunning : RescalePhase → Bool
  | .running _ => true
  | _ => false

/-- Whether a call looks at the resources. -/
def Call.looks : Call → Bool
  | .event (.resources _) => true
  | .event (.scaled _) => true
  | .poll => true
  | _ => false

/-- A call that looks at the resources and returns what it finds. -/
abbrev Call.Consults (c : Call) : Prop := c = .poll ∨ ∃ view, c = .event (.resources view)

/-- A call returns what it finds, carries out a restart, or does not look: `Consults`,
`.scaled request` or no `looks`. -/
theorem Call.looks_cases (c : Call) :
    c.Consults ∨ (∃ request, c = .event (.scaled request)) ∨ c.looks = false := by
  cases c with
  | tick => exact .inr (.inr rfl)
  | poll => exact .inl (.inl rfl)
  | event e =>
    cases e with
    | resources view => exact .inl (.inr ⟨view, rfl⟩)
    | scaled request => exact .inr (.inl ⟨request, rfl⟩)
    | running | progress | finished | failed => exact .inr (.inr rfl)

namespace Scheduler

open Scheduling ExecutionGraph

variable {s t u : Scheduler} {now : Instant} {c : Call}

/-! ## What stays on its course -/

/-- The job stands where it stood, and has run as long. -/
structure SameCourse (s t : Scheduler) : Prop where
  /-- The phase is the same. -/
  phase_eq : t.controller.phase = s.controller.phase
  /-- The last start is the same. -/
  runningSince_eq : t.runningSince = s.runningSince

/-- A job is on the same course as itself. -/
theorem SameCourse.refl (s : Scheduler) : s.SameCourse s := ⟨rfl, rfl⟩

/-- Being on the `SameCourse` is transitive. -/
theorem SameCourse.trans (h : s.SameCourse t) (h' : t.SameCourse u) : s.SameCourse u :=
  ⟨h'.phase_eq.trans h.phase_eq, h'.runningSince_eq.trans h.runningSince_eq⟩

/-- Passes leave the job on its course. -/
theorem PassSteps.sameCourse (h : PassSteps now s t) : s.SameCourse t :=
  ⟨(congrArg (·.controller.phase) h.frame :), (congrArg Scheduler.runningSince h.frame :)⟩

/-- Launches change the execution and tell the backend, whatever comes of them; the job stays on its
course. -/
theorem ensures_launch_course {l : Launch} (h : s.SameCourse t) :
    (launch now l).Ensures t (fun _ => s.SameCourse) s.SameCourse := by
  have hgraph {α : Type} {f : ExecutionGraph → Except ExecutionError (α × ExecutionGraph)}
      {u : Scheduler} (hu : s.SameCourse u) :
      (onGraph f).Ensures u (fun _ => s.SameCourse) s.SameCourse :=
    ensures_onGraph.2 ⟨fun _ _ _ => ⟨hu.phase_eq, hu.runningSince_eq⟩, fun _ _ => hu⟩
  unfold launch deploy assign
  simp only [ensures_bind]
  refine (hgraph h).mono (fun id u hu => (hgraph hu).mono (fun _ u hu => ?_) fun _ hu => hu)
    fun _ hu => hu
  have hask : (ask id l.node now).Ensures u (fun _ => s.SameCourse) s.SameCourse := by
    unfold ask
    rw [ensures_bind, ensures_get, ensures_bind, ensures_modify]
    split
    · exact ⟨hu.phase_eq, hu.runningSince_eq⟩
    · rw [ensures_bind]
      exact hgraph ⟨hu.phase_eq, hu.runningSince_eq⟩
  refine hask.mono (fun id? u hu => ?_) fun _ hu => hu
  split
  · exact ⟨hu.phase_eq, hu.runningSince_eq⟩
  · exact hu

/-- Looking for slow attempts by `speculate` leaves the job on its course, whatever comes of the
launches. -/
theorem sameCourse_speculate (s : Scheduler) (now : Instant) :
    s.SameCourse ((speculate now).final s) := by
  refine ensures_final.1 ?_
  unfold speculate
  rw [ensures_bind, ensures_get, ensures_bind, ensures_checked]
  refine ⟨?_, fun _ _ => .refl s⟩
  intro r _
  obtain ⟨launches, speculation, registry⟩ := r
  show (modify _ >>= _ : Scheduling (List AttemptId)).Ensures s _ _
  rw [ensures_bind, ensures_modify, ensures_bind]
  exact Ensures.mapM (fun _ => s.SameCourse) (fun _ _ _ => ensures_launch_course) launches _
    ⟨rfl, rfl⟩

/-- The job goes on by steady steps, and stays on its course. -/
structure Continues (now : Instant) (s t : Scheduler) : Prop where
  /-- It goes on by steps that leave the blocked nodes as they are. -/
  steady : SteadySteps now s t
  /-- It stays on its course. -/
  course : s.SameCourse t

/-- A job goes on to where it is by no steps at all. -/
theorem Continues.refl (s : Scheduler) : Continues now s s := ⟨.refl, .refl s⟩

/-- Going on is transitive. -/
theorem Continues.trans (h : Continues now s t) (h' : Continues now t u) : Continues now s u :=
  ⟨h.steady.trans h'.steady, h.course.trans h'.course⟩

/-- A job that goes on does so by steps of a call. -/
theorem Continues.steps (h : Continues now s t) : Steps now s t := h.steady.steps

/-- A job that ends with a failure stays on its course: neither its phase nor its last start
changes. -/
theorem continues_fail (s : Scheduler) (e : SchedulerError) : Continues now s (s.fail e now) :=
  ⟨.single (steadyStep_fail e), ⟨rfl, rfl⟩⟩

/-- The passes of `schedule` are a way to go on, in whatever state they end. -/
theorem continues_schedule (hs : s.Sound) : Continues now s ((schedule now).final s) :=
  ⟨(passSteps_schedule hs).steady, (passSteps_schedule hs).sameCourse⟩

/-- The passes of `schedule` are a way to go on, whether or not they return. -/
theorem ensures_schedule_continues (hs : s.Sound) :
    (schedule now).Ensures s (fun _ => Continues now s) (Continues now s) :=
  ensures_final.2 (continues_schedule hs)

/-! ## One look in a call -/

/-- What a call decides between its opening and the rest. -/
inductive Decides (now : Instant) (c : Call) (t : Scheduler) : Scheduler → Prop
  /-- Nothing. -/
  | nothing : Decides now c t t
  /-- It looks at the resources. -/
  | look (looks : c.looks = true) : Decides now c t ((look now).final t)
  /-- It looks for slow attempts, and blocks their nodes. -/
  | react {launches : List Launch} {speculation : Speculation} {registry : SlowNodes}
      (call_eq : c = .tick) (executing : t.isExecuting = true) (live : t.status.isTerminal = false)
      (reacts : t.Reacts now launches speculation registry) :
      Decides now c t (t.reacted speculation registry)

/-- Whatever a call `Decides`, it comes to by steps. -/
theorem Decides.steps {w : Scheduler} (h : Decides now c t w) : Steps now t w := by
  cases h with
  | nothing => exact .refl
  | look => exact .single .look
  | react _ executing live reacts => exact .single (.react executing live reacts)

/-- Only a look at the resources can set another course: a call that does not look stays on its
own. -/
theorem Decides.sameCourse {w : Scheduler} (h : Decides now c t w) (hlooks : c.looks = false) :
    t.SameCourse w := by
  cases h with
  | nothing | react => exact ⟨rfl, rfl⟩
  | look looks =>
    rw [hlooks] at looks
    cases looks

/-- A call has opened, has decided at most one thing, and has stayed on its course since. -/
def OnCourse (now : Instant) (s : Scheduler) (c : Call) (u : Scheduler) : Prop :=
  ∃ t w, Opening now s c t ∧ Decides now c t w ∧ Continues now w u

/-- A call that goes on directly after its opening, as in `.nothing`, stays on its course. -/
theorem OnCourse.of_opening (hopen : Opening now s c t) (h : Continues now t u) :
    OnCourse now s c u :=
  ⟨t, t, hopen, .nothing, h⟩

/-- A call may end with its opening, in `t`. -/
theorem OnCourse.opened (hopen : Opening now s c t) : OnCourse now s c t :=
  .of_opening hopen (.refl t)

/-- A call by which no reported end is applied may leave `s` as it is. -/
theorem OnCourse.unchanged (hended : c.ended? s.graph now = none) : OnCourse now s c s :=
  .opened (.nothing hended)

/-- What comes after the look of a call, the rest `k`, stays on the course that the look has set. -/
theorem ensures_look_course {α : Type} {k : Option ScaleRequest → Scheduling α} (hs : s.Sound)
    (hopen : Opening now s c t) (hlooks : c.looks = true)
    (hrest : ∀ request? w, w.Sound →
      (k request?).Ensures w (fun _ => Continues now w) (Continues now w)) :
    (look now >>= k).Ensures t (fun _ => OnCourse now s c) (OnCourse now s c) := by
  refine ensures_bind_of_final (P := fun w => w = (look now).final t) rfl ?_ ?_
  · rintro request? w - rfl
    exact (hrest request? _ (hopen.sound hs).look).mono
      (fun _ u hu => ⟨t, _, hopen, .look hlooks, hu⟩) fun u hu => ⟨t, _, hopen, .look hlooks, hu⟩
  · rintro w rfl
    exact ⟨t, _, hopen, .look hlooks, .refl _⟩

/-- A call that opens and then schedules decides nothing, and stays `OnCourse`. -/
theorem ensures_schedule_onCourse (hs : s.Sound) (hopen : Opening now s c t) :
    (schedule now).Ensures t (fun _ => OnCourse now s c) (OnCourse now s c) :=
  (ensures_schedule_continues (hopen.sound hs)).mono (fun _ _ hu => .of_opening hopen hu)
    fun _ hu => .of_opening hopen hu

/-- Slow attempts are looked for by `speculate`: the call decides to react or decides nothing, and
stays `OnCourse`. -/
theorem onCourse_speculate (hopen : Opening now s .tick t) (hexecuting : t.isExecuting = true)
    (hlive : t.status.isTerminal = false) : OnCourse now s .tick ((speculate now).final t) := by
  have hcourse := sameCourse_speculate t now
  have hdecides : Speculated now t ((speculate now).final t) ∨ (speculate now).final t = t :=
    (ensures_final (P := fun u => Speculated now t u ∨ u = t)).1
      ((ensures_speculate hexecuting hlive).mono (fun _ _ => Or.inl) fun _ => Or.inr)
  rcases hdecides with ⟨launches, speculation, registry, hreacts, hunder⟩ | hsame
  · exact ⟨t, _, hopen, .react rfl hexecuting hlive hreacts, hunder.steady, hcourse.phase_eq,
      hcourse.runningSince_eq⟩
  · rw [hsame]
    exact .opened hopen

/-- A tick of a job that has not ended stays `OnCourse`. -/
theorem ensures_tick_course (hs : s.Sound) (hlive : s.status.isTerminal = false) :
    (tick now).Ensures s (fun _ => OnCourse now s .tick) (OnCourse now s .tick) := by
  have hrest (u : Scheduler) (launched : List AttemptId) (hu : OnCourse now s .tick u) :
      (schedule now >>= fun _ => pure launched).Ensures u (fun _ => OnCourse now s .tick)
        (OnCourse now s .tick) := by
    rw [ensures_bind]
    obtain ⟨t, w, hopen, hdecides, hrest⟩ := hu
    have hsound : u.Sound := hrest.steps.sound (hdecides.steps.sound (hopen.sound hs))
    exact ensures_final.2 ⟨t, w, hopen, hdecides, hrest.trans (continues_schedule hsound)⟩
  unfold tick
  rw [ensures_bind, ensures_get, hlive]
  show (modify _ >>= _ : Scheduling (List AttemptId)).Ensures s _ _
  rw [ensures_bind, ensures_modify, ensures_bind, ensures_get]
  show (if (s.purged now).isExecuting = true then
      speculate now >>= fun launched => schedule now >>= fun _ => pure launched
    else pure [] >>= fun launched => schedule now >>= fun _ => pure launched :
      Scheduling (List AttemptId)).Ensures (s.purged now) _ _
  split
  · next hexecuting =>
    exact ensures_bind_of_final (onCourse_speculate .tick hexecuting hlive)
      (fun launched u _ hu => hrest u launched hu) fun _ hu => hu
  · exact hrest _ [] (.opened .tick)

/-- Carrying out a request restarts the vertices, then looks, and stays `OnCourse`. -/
theorem ensures_applyScale_course {request : ScaleRequest} (hs : s.Sound) :
    (applyScale request now).Ensures s (fun _ => OnCourse now s (.event (.scaled request)))
      (OnCourse now s (.event (.scaled request))) := by
  unfold applyScale
  rw [ensures_bind, ensures_get]
  split
  · exact .unchanged rfl
  · next h =>
    have hopen : Opening now s (.event (.scaled request)) ((restartAll request now).final s) :=
      .scaled (by simpa using h)
    refine ensures_bind_of_final (P := Opening now s (.event (.scaled request))) hopen ?_ ?_
    · intro _ t _ ht
      exact ensures_look_course hs ht rfl fun _ w hw => ensures_schedule_continues hw
    · intro t ht
      exact .opened ht

/-- A poll looks, and stays `OnCourse`. -/
theorem ensures_poll_course (hs : s.Sound) :
    (Scheduler.poll now).Ensures s (fun _ => OnCourse now s .poll) (OnCourse now s .poll) := by
  unfold poll
  rw [ensures_bind, ensures_get]
  split
  · exact .unchanged rfl
  · refine ensures_look_course hs (.nothing rfl) rfl fun request? w hw => ?_
    rw [ensures_bind]
    refine (ensures_schedule_continues hw).mono (fun _ u hu => ?_) fun _ hu => hu
    rw [ensures_bind]
    exact ensures_checkSlotRequests hu fun e => hu.trans (continues_fail u e)

/-- A change of the view is followed by a look, and the call stays `OnCourse`. -/
theorem ensures_resourcesChanged_course {view : ResourceView} (hs : s.Sound) :
    (resourcesChanged view now).Ensures s (fun _ => OnCourse now s (.event (.resources view)))
      (OnCourse now s (.event (.resources view))) := by
  unfold resourcesChanged
  rw [ensures_bind, ensures_get]
  split
  · exact .unchanged rfl
  · refine ensures_look_course (t := s.viewing view) hs .resources rfl fun request? w hw => ?_
    rw [ensures_bind]
    exact ensures_schedule_continues hw

section Reports

variable {id : AttemptId} {inputBytes outputBytes : Option Nat}

/-- A reported success decides nothing, and stays `OnCourse`. -/
theorem ensures_attemptFinished_course (hs : s.Sound) :
    (attemptFinished id inputBytes outputBytes now).Ensures s
      (fun _ => OnCourse now s (.event (.finished id inputBytes outputBytes)))
      (OnCourse now s (.event (.finished id inputBytes outputBytes))) := by
  by_cases h : s.graph.Awaits id
  · rw [ensures_congr (attemptFinished_of_awaits h)]
    exact ensures_schedule_onCourse hs (.finished h)
  · have hnothing : OnCourse now s (.event (.finished id inputBytes outputBytes)) s :=
      .unchanged (ended?_finished_none h)
    unfold attemptFinished
    rw [ensures_bind]
    exact ensures_report (fun _ _ => hnothing) (fun _ => hnothing) fun h' => absurd h' h

/-- A reported failure decides nothing, and stays `OnCourse`. -/
theorem ensures_attemptFailed_course (hs : s.Sound) :
    (attemptFailed id now).Ensures s (fun _ => OnCourse now s (.event (.failed id)))
      (OnCourse now s (.event (.failed id))) := by
  have hnothing (h : ¬s.graph.Awaits id) : OnCourse now s (.event (.failed id)) s :=
    .unchanged (ended?_failed_none h)
  unfold attemptFailed
  rw [ensures_bind]
  refine ensures_report (fun h _ => hnothing h) hnothing fun h => ?_
  have hopen : Opening now s (.event (.failed id)) (s.advanced id (·.fail now)) := .failed h
  split
  · next heq => cases heq
  · exact ensures_schedule_onCourse hs hopen
  · exact .of_opening hopen (continues_fail _ _)

end Reports

/-- Every call opens, then `Decides` at most one thing, and stays on its course from there. -/
theorem after_course (hs : s.Sound) (now : Instant) (c : Call) :
    ∃ t w, Opening now s c t ∧ Decides now c t w ∧ Continues now w (s.after now c) := by
  refine (ensures_final (P := OnCourse now s c)).1 ?_
  cases c with
  | tick =>
    unfold Call.perform
    rw [ensures_bind]
    cases hlive : s.status.isTerminal with
    | true =>
      unfold tick
      rw [ensures_bind, ensures_get, hlive]
      exact .unchanged rfl
    | false =>
      exact ensures_tick_course hs hlive
  | poll => exact ensures_poll_course hs
  | event e =>
    cases e with
    | running id =>
      show (attemptRunning id now >>= _ : Scheduling (Option ScaleRequest)).Ensures s _ _
      unfold attemptRunning
      rw [ensures_bind, ensures_bind]
      exact ensures_report (fun _ _ => .unchanged rfl) (fun _ => .unchanged rfl)
        fun h => .opened (.running h)
    | progress id bytes =>
      show (attemptProgressed id bytes >>= _ : Scheduling (Option ScaleRequest)).Ensures s _ _
      unfold attemptProgressed
      rw [ensures_bind, ensures_bind]
      exact ensures_report (fun _ _ => .unchanged rfl) (fun _ => .unchanged rfl)
        fun h => .opened (.progress h)
    | finished id inputBytes outputBytes =>
      show (attemptFinished id inputBytes outputBytes now >>= _ :
        Scheduling (Option ScaleRequest)).Ensures s _ _
      rw [ensures_bind]
      exact ensures_attemptFinished_course hs
    | failed id =>
      show (attemptFailed id now >>= _ : Scheduling (Option ScaleRequest)).Ensures s _ _
      rw [ensures_bind]
      exact ensures_attemptFailed_course hs
    | resources view => exact ensures_resourcesChanged_course hs
    | scaled request =>
      show (applyScale request now >>= _ : Scheduling (Option ScaleRequest)).Ensures s _ _
      rw [ensures_bind]
      exact ensures_applyScale_course hs

/-- A call that does not look at the resources stays on the course of its opening, `t`. -/
theorem after_course_of_not_looks (hs : s.Sound) (hlooks : c.looks = false) (now : Instant) :
    ∃ t, Opening now s c t ∧ Steps now t (s.after now c) ∧ t.SameCourse (s.after now c) := by
  obtain ⟨t, w, hopen, hdecides, hrest⟩ := after_course hs now c
  exact ⟨t, hopen, hdecides.steps.trans hrest.steps, (hdecides.sameCourse hlooks).trans hrest.course⟩

/-! ## Starts -/

/-- Whether the job runs, without a restart asked for. -/
def isRunning (s : Scheduler) : Bool := s.controller.phase.isRunning

/-- The times of the calls that have taken the job into the running phase. -/
def starts (s : Scheduler) : History → List Instant
  | [] => []
  | (now, c) :: rest =>
    (if !s.isRunning && (s.after now c).isRunning then [now] else []) ++ (s.after now c).starts rest

/-- The times at which a job starts in a longer history are those of its parts. -/
theorem starts_append (s : Scheduler) (before rest : History) :
    s.starts (before ++ rest) = s.starts before ++ (s.run before).starts rest := by
  induction before generalizing s with
  | nil => rfl
  | cons entry before ih =>
    show _ ++ (s.after entry.1 entry.2).starts (before ++ rest) = _
    rw [ih, ← List.append_assoc]
    rfl

/-- Jobs on the same course both run or both do not. -/
theorem SameCourse.isRunning_eq (h : s.SameCourse t) : t.isRunning = s.isRunning :=
  congrArg RescalePhase.isRunning h.phase_eq

/-- No opening takes a job into the running phase or out of it, or changes `runningSince`. -/
theorem Opening.starts (h : Opening now s c t) :
    t.isRunning = s.isRunning ∧ t.runningSince = s.runningSince := by
  cases h with
  | finished =>
    unfold won
    split
    · refine ⟨?_, rfl⟩
      show ((s.controller.untrack _).phase).isRunning = s.controller.phase.isRunning
      unfold RescaleController.untrack
      cases s.controller.phase <;> rfl
    · exact ⟨rfl, rfl⟩
  | scaled rescaling =>
    obtain ⟨pending, hphase⟩ := phase_of_rescaling rescaling
    have hstopped : s.isRunning = false := by rw [Scheduler.isRunning, hphase]; rfl
    rw [hstopped]
    -- The job waits after the restarts; if one of them is refused, the restart is still asked for.
    apply restartAll_keeps (J := fun t => t.isRunning = false ∧ t.runningSince = s.runningSince)
      ⟨hstopped, rfl⟩ (fun _ _ _ _ _ ht => ht)
    rintro t ⟨hrunning, hsince⟩
    refine ⟨?_, hsince⟩
    show ((t.controller.awaitRestart now).phase).isRunning = false
    unfold RescaleController.awaitRestart
    split
    · rfl
    · exact hrunning
  | nothing | running | progress | failed | resources | tick => exact ⟨rfl, rfl⟩

/-- A look that takes a job into the running phase remembers its time `now` as `runningSince`. -/
theorem runningSince_look (h : s.Tracked) : ((look now).final s).runningSince =
    if !s.isRunning && ((look now).final s).isRunning then some now else s.runningSince := by
  refine (ensures_final (P := fun t => t.runningSince =
    if !s.isRunning && t.isRunning then some now else s.runningSince)).1 ?_
  have hstay {t : Scheduler} (hsince : t.runningSince = s.runningSince)
      (hrunning : t.isRunning = true → s.isRunning = true) : t.runningSince =
        if !s.isRunning && t.isRunning then some now else s.runningSince := by
    rw [hsince, if_neg]
    cases ht : t.isRunning with
    | false => simp
    | true => simp [hrunning ht]
  unfold look
  rw [ensures_bind, ensures_onController]
  refine ⟨?_, fun _ _ => hstay rfl id⟩
  intro action c hc
  have heval := RescaleController.evaluate_eq_ok hc
  cases action with
  | idle =>
    refine hstay rfl fun hrunning => ?_
    cases heval with
    | idle => exact hrunning
    | wait => cases hrunning
  | scale request =>
    refine hstay rfl fun hrunning => ?_
    cases heval
    cases hrunning
  | insufficient available required =>
    refine hstay rfl fun hrunning => ?_
    cases heval
    cases hrunning
  | start plan reduced =>
    have hstarts : (!s.isRunning && c.phase.isRunning) = true := by
      unfold Scheduler.isRunning
      cases heval with
      | start waiting | startReduced waiting => rw [waiting]; rfl
    show ((plan.toList.forM (startPlanned now)) >>= fun _ => _).Ensures _ _ _
    rw [ensures_bind]
    refine (ensures_start h heval).mono ?_ fun _ => False.elim
    rintro _ t ⟨rfl, -, -⟩
    rw [ensures_bind, ensures_modify, ensures_pure]
    exact (if_pos hstarts).symm

/-- A call that takes a job into the running phase remembers its time `now` as `runningSince`. -/
theorem runningSince_after (hs : s.Sound) (h : s.Tracked) (now : Instant) (c : Call) :
    (s.after now c).runningSince =
      if !s.isRunning && (s.after now c).isRunning then some now else s.runningSince := by
  obtain ⟨t, w, hopen, hdecides, -, hcourse⟩ := after_course hs now c
  obtain ⟨hrunning, hsince⟩ := hopen.starts
  rw [hcourse.isRunning_eq, hcourse.runningSince_eq, ← hrunning, ← hsince]
  cases hdecides with
  | nothing | react =>
    show t.runningSince = if !t.isRunning && t.isRunning then some now else t.runningSince
    rw [Bool.not_and_self, if_neg Bool.false_ne_true]
  | look => exact runningSince_look (hopen.tracked h)

/-- A job runs since the last call that has taken it into the running phase, the last of
`s.starts history`. -/
theorem runningSince_run (hs : s.Sound) (h : s.Tracked) (hnew : s.runningSince = none)
    (history : History) : (s.run history).runningSince = (s.starts history).getLast? := by
  induction history using List.reverseRecOn with
  | nil => exact hnew
  | append_singleton before entry ih =>
    obtain ⟨now, c⟩ := entry
    obtain ⟨hsound, htracked⟩ := sound_and_tracked_run hs h before
    rw [run_append, starts_append]
    refine (runningSince_after hsound htracked now c).trans ?_
    simp only [Scheduler.starts, List.append_nil]
    split
    · rw [List.getLast?_append]
      rfl
    · rw [List.append_nil]
      exact ih

end Scheduler

end AdaptiveBatch
