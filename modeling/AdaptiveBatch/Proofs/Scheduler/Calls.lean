import AdaptiveBatch.Proofs.Scheduler.Runs
import AdaptiveBatch.Proofs.Scheduler.Speculation

/-! # Calls open and go on by moves

A call first does what it is for: it applies the report of an attempt, takes over a view, restarts
the vertices of a request, or forgets blocks that have ended. Everything after that is made of a few
moves: it looks at the resources, schedules, looks for slow attempts, or gives up. Moves are made of
steps. A request for a restart comes from the look that follows the opening.

* **`Scheduler.Opening`** — what a call is for; **`Scheduler.Move`** — what it does then;
* **`Scheduler.after_moves`**, **`Scheduler.after_steps`**, **`Scheduler.answer_look`** — every call
  opens and goes on by moves, hence by steps, and where its answer comes from;
* **`Scheduler.after_keeps`** — what openings and steps keep is kept by every call;
* **`Scheduler.Visits`** — the states that a job comes to, after its calls and in the middle of them;
* **`Scheduler.Sound.after`** — the invariant behind the steps is kept. -/

namespace AdaptiveBatch.Scheduler

open Scheduling ExecutionGraph

variable {s t u : Scheduler} {now : Instant}

/-! ## Openings -/

/-- The state with another view. -/
def viewing (s : Scheduler) (view : ResourceView) : Scheduler :=
  { s with controller := { s.controller with view := view.capped s.config.slots.maxSlots } }

/-- The state with an attempt that runs. -/
def advanced (s : Scheduler) (id : AttemptId) (advance : Attempt → Attempt) : Scheduler :=
  { s with graph := s.graph.modifyAttempt id advance }

/-- The state in which a vertex is finished. -/
def completed (s : Scheduler) (vertex : VertexId) : Scheduler :=
  { s with
    controller := s.controller.untrack vertex
    finished := s.finished || s.allFinished }

/-- The state in which an attempt has won its task, and its rivals are stopped. -/
def winning (s : Scheduler) (id : AttemptId) (inputBytes outputBytes : Option Nat)
    (now : Instant) : Scheduler :=
  { s with graph := s.graph.win id inputBytes outputBytes now }.cancelRemote (s.graph.rivalIds id)

/-- The state after a win, which may have been the last one of its vertex. -/
def won (s : Scheduler) (id : AttemptId) (inputBytes outputBytes : Option Nat) (now : Instant) :
    Scheduler :=
  if (s.graph.win id inputBytes outputBytes now).isFinished id.vertex then
    (s.winning id inputBytes outputBytes now).completed id.vertex
  else s.winning id inputBytes outputBytes now

/-- The state in which blocks that have ended are forgotten. -/
def purged (s : Scheduler) (now : Instant) : Scheduler := { s with slow := s.slow.purge now }

/-- What a call does first. -/
inductive Opening (now : Instant) (s : Scheduler) : Call → Scheduler → Prop
  /-- Nothing, and no reported end is applied. -/
  | nothing {c : Call} (ended_eq : c.ended? s.graph now = none) : Opening now s c s
  /-- An awaited attempt runs. -/
  | running {id : AttemptId} (awaits : s.graph.Awaits id) :
      Opening now s (.event (.running id)) (s.advanced id (·.run now))
  /-- An awaited attempt has read so many bytes. -/
  | progress {id : AttemptId} {bytes : Nat} (awaits : s.graph.Awaits id) :
      Opening now s (.event (.progress id bytes))
        (s.advanced id fun a => { a with inputBytes := some bytes })
  /-- An awaited attempt wins. -/
  | finished {id : AttemptId} {inputBytes outputBytes : Option Nat} (awaits : s.graph.Awaits id) :
      Opening now s (.event (.finished id inputBytes outputBytes))
        (s.won id inputBytes outputBytes now)
  /-- An awaited attempt has failed. -/
  | failed {id : AttemptId} (awaits : s.graph.Awaits id) :
      Opening now s (.event (.failed id)) (s.advanced id (·.fail now))
  /-- A view is taken over. -/
  | resources {view : ResourceView} : Opening now s (.event (.resources view)) (s.viewing view)
  /-- The vertices of a request are restarted. -/
  | scaled {request : ScaleRequest} (rescaling : s.status = .rescaling) :
      Opening now s (.event (.scaled request)) ((restartAll request now).final s)
  /-- Blocks that have ended are forgotten. -/
  | tick : Opening now s .tick (s.purged now)

/-- The end of an awaited attempt that reports success is applied: `ended?` names it. -/
theorem ended?_finished {g : ExecutionGraph} {id : AttemptId} {inputBytes outputBytes : Option Nat}
    (h : g.Awaits id) :
    (Call.event (.finished id inputBytes outputBytes)).ended? g now = some id := by
  simp only [Call.ended?, Event.ended?, finishAttempt]
  rw [report_of_awaits h]

/-- The end of an awaited attempt that reports a failure is applied: `ended?` names it. -/
theorem ended?_failed {g : ExecutionGraph} {id : AttemptId} (h : g.Awaits id) :
    (Call.event (.failed id)).ended? g now = some id := by
  simp only [Call.ended?, Event.ended?, failAttempt]
  rw [report_of_awaits h]

/-- A report about an attempt that is not awaited is `.stray` or an error, and changes nothing. -/
theorem report_of_not_awaits {α : Type} {g : ExecutionGraph} {id : AttemptId} (h : ¬g.Awaits id)
    (change : Task → Task) (result : ExecutionGraph → α) :
    (∃ reason, g.report id change result = .ok (.stray reason, g)) ∨
      ∃ e, g.report id change result = .error e := by
  cases hr : g.report id change result with
  | error e => exact Or.inr ⟨e, rfl⟩
  | ok r =>
    obtain ⟨outcome, g'⟩ := r
    rcases report_cases hr with ⟨reason, rfl, rfl⟩ | ⟨hawaits, -⟩
    · exact Or.inl ⟨reason, rfl⟩
    · exact absurd hawaits h

/-- A success of an attempt that is not awaited is not applied. -/
theorem ended?_finished_none {g : ExecutionGraph} {id : AttemptId}
    {inputBytes outputBytes : Option Nat} (h : ¬g.Awaits id) :
    (Call.event (.finished id inputBytes outputBytes)).ended? g now = none := by
  simp only [Call.ended?, Event.ended?, finishAttempt]
  rcases report_of_not_awaits h _ _ with ⟨reason, heq⟩ | ⟨e, heq⟩ <;> rw [heq]

/-- A failure of an attempt that is not awaited is not applied. -/
theorem ended?_failed_none {g : ExecutionGraph} {id : AttemptId} (h : ¬g.Awaits id) :
    (Call.event (.failed id)).ended? g now = none := by
  simp only [Call.ended?, Event.ended?, failAttempt]
  rcases report_of_not_awaits h _ _ with ⟨reason, heq⟩ | ⟨e, heq⟩ <;> rw [heq]

/-- A report is applied if the attempt is awaited, and else changes nothing: `Q` or `E` is needed in
these cases only. -/
theorem ensures_report {α : Type} {id : AttemptId} {change : Task → Task}
    {result : ExecutionGraph → α} {Q : Reported α → Scheduler → Prop} {E : Scheduler → Prop}
    (hstray : ¬s.graph.Awaits id → ∀ reason, Q (.stray reason) s)
    (herror : ¬s.graph.Awaits id → E s)
    (happlied : s.graph.Awaits id →
      Q (.applied (result (s.graph.modifyTask id.vertex id.subtask change)))
        { s with graph := s.graph.modifyTask id.vertex id.subtask change }) :
    (onGraph (·.report id change result)).Ensures s Q E := by
  rw [ensures_onGraph]
  by_cases h : s.graph.Awaits id
  · rw [report_of_awaits h]
    constructor
    · intro a g heq
      cases heq
      exact happlied h
    · intro _ heq
      cases heq
  · rcases report_of_not_awaits h change result with ⟨reason, heq⟩ | ⟨e, heq⟩
    · rw [heq]
      constructor
      · intro a g heq
        cases heq
        exact hstray h reason
      · intro _ heq
        cases heq
    · rw [heq]
      constructor
      · intro _ _ heq
        cases heq
      · intro _ _
        exact herror h

/-- A win makes the state `s.won`, and is followed by `schedule`. -/
theorem attemptFinished_of_awaits {id : AttemptId} {inputBytes outputBytes : Option Nat}
    (h : s.graph.Awaits id) : attemptFinished id inputBytes outputBytes now s =
      schedule now (s.won id inputBytes outputBytes now) := by
  have hreport : onGraph (·.finishAttempt id inputBytes outputBytes now) s =
      .ok (.applied {
          canceled := s.graph.rivalIds id
          vertexFinished := (s.graph.win id inputBytes outputBytes now).isFinished id.vertex })
        { s with graph := s.graph.win id inputBytes outputBytes now } :=
    eq_ok_iff.2 ((ensures_onGraph_of_ok (report_of_awaits h _ _)).2 ⟨rfl, rfl⟩)
  show EStateM.bind (onGraph _) _ s = _
  rw [EStateM.bind, hreport]
  -- All that the win changes is changed before anything is scheduled.
  show (if (s.graph.win id inputBytes outputBytes now).isFinished id.vertex = true then
      vertexFinished id.vertex >>= fun _ => schedule now
    else schedule now : Scheduling Unit) (s.winning id inputBytes outputBytes now) = _
  unfold won
  split <;> rfl

/-! ## Slot requests -/

/-- The task for which a job gives up that runs and lets it wait for too long. -/
def expired? (s : Scheduler) (now : Instant) : Option (VertexId × Nat × Duration) :=
  s.runningSince.bind fun since => if s.isExecuting then s.overdueTask? since now else none

/-- The job gives up for the task that `s.expired?` finds, or nothing happens. -/
theorem checkSlotRequests_eq : checkSlotRequests now s =
    match s.expired? now with
    | none => .ok () s
    | some (vertex, k, waited) =>
      .error (.refused (.slotRequestTimeout vertex k waited))
        (s.fail (.slotRequestTimeout vertex k waited) now) := by
  unfold checkSlotRequests expired?
  rw [get_bind_apply]
  cases s.runningSince with
  | none => rfl
  | some since =>
    dsimp only [Option.bind_some]
    split
    · cases s.overdueTask? since now <;> rfl
    · rfl

/-! ## Moves -/

/-- What a call does after its opening. -/
inductive Move (now : Instant) (s : Scheduler) : Scheduler → Prop
  /-- It looks at the resources. -/
  | look : Move now s ((look now).final s)
  /-- It schedules. -/
  | schedule : Move now s ((schedule now).final s)
  /-- It looks for slow attempts. -/
  | speculate (executing : s.isExecuting = true) (live : s.status.isTerminal = false) :
      Move now s ((speculate now).final s)
  /-- It gives up. -/
  | giveUp (e : SchedulerError) : Move now s (s.fail e now)

/-- A look that returns is a move, to the state `t` in which it ends. -/
theorem Move.of_look {request? : Option ScaleRequest} (h : Scheduler.look now s = .ok request? t) :
    Move now s t := by
  rw [← final_of_eq_ok h]
  exact .look

/-- Any number of moves. -/
abbrev Moves (now : Instant) : Scheduler → Scheduler → Prop := Relation.ReflTransGen (Move now)

/-- What every move keeps is kept by any number of them: `J` is an invariant of `Moves`. -/
theorem Moves.keeps {J : Scheduler → Prop} (move : ∀ s t, Move now s t → J s → J t)
    (h : Moves now s t) (hs : J s) : J t := by
  induction h with
  | refl => exact hs
  | tail _ hmove ih => exact move _ _ hmove ih

/-- A move is made of steps. -/
theorem Move.steps (h : Move now s t) (hs : s.Sound) : Steps now s t := by
  cases h with
  | look => exact .single .look
  | schedule => exact (passSteps_schedule hs).steps
  | speculate executing live =>
    exact ensures_final.1 ((ensures_speculate executing live).mono
      (fun _ _ ht => ht.steps executing live) fun _ ht => ht ▸ .refl)
  | giveUp e => exact .single (.giveUp e)

/-- Any number of moves is made of steps. -/
theorem Moves.steps (h : Moves now s t) (hs : s.Sound) : Steps now s t := by
  induction h with
  | refl => exact .refl
  | tail _ hmove ih => exact ih.trans (hmove.steps (ih.sound hs))

/-- A call has opened, has gone on by moves, and an answer comes from the look after the opening. -/
def Leads (now : Instant) (s : Scheduler) (c : Call) (request? : Option ScaleRequest)
    (u : Scheduler) : Prop :=
  ∃ t, Opening now s c t ∧ Moves now t u ∧ ∀ request, request? = some request →
    ∃ w, look now t = .ok (some request) w ∧ Moves now w u

/-- A call that opens and goes on by moves `Leads` to where these end, if it returns no request. -/
theorem Leads.of_moves {c : Call} (hopen : Opening now s c t) (hmoves : Moves now t u) :
    Leads now s c none u :=
  ⟨t, hopen, hmoves, fun _ heq => by cases heq⟩

/-- A call that opens and then schedules `Leads` to where it ends, and returns no request. -/
theorem ensures_schedule_of_opening {c : Call} (hopen : Opening now s c t) :
    (schedule now).Ensures t (fun _ => Leads now s c none) (Leads now s c none) :=
  ensures_final.2 (.of_moves hopen (.single .schedule))

/-- A call that opens, looks at the resources, schedules, and does nothing else but to give up in
`finish`, `Leads` to where it ends. -/
theorem ensures_look_of_opening {c : Call} (finish : Scheduling Unit) (hopen : Opening now s c t)
    (hfinish : ∀ u, finish.Ensures u (fun _ => Moves now u) (Moves now u)) :
    (look now >>= fun request => schedule now >>= fun _ => finish >>= fun _ =>
      pure request).Ensures t (Leads now s c) (Leads now s c none) := by
  apply ensures_bind_of_final (P := Moves now t) (.single .look)
  · intro request? w hw hlook
    apply ensures_bind_of_final (P := Moves now w) (.single .schedule)
    · intro _ u _ hu
      rw [ensures_bind]
      refine (hfinish u).mono ?_ ?_
      · -- Only here the call returns what the look has answered.
        intro _ v hv
        refine ⟨t, hopen, (hlook.trans hu).trans hv, ?_⟩
        rintro request rfl
        exact ⟨w, hw, hu.trans hv⟩
      · intro v hv
        exact .of_moves hopen ((hlook.trans hu).trans hv)
    · intro u hu
      exact .of_moves hopen (hlook.trans hu)
  · intro w hlook
    exact .of_moves hopen hlook

/-- The slot requests are checked, and either nothing happens or the job ends by `s.fail`. -/
theorem ensures_checkSlotRequests {Q : Unit → Scheduler → Prop} {E : Scheduler → Prop}
    (hstay : Q () s) (hgiveUp : ∀ e, E (s.fail e now)) :
    (checkSlotRequests now).Ensures s Q E := by
  unfold Ensures
  rw [checkSlotRequests_eq]
  cases s.expired? now with
  | none => exact hstay
  | some overdue => exact hgiveUp _

/-- A tick is made of moves, once the blocks that have ended are forgotten in `s.purged`. -/
theorem ensures_tick (hlive : s.status.isTerminal = false) :
    (tick now).Ensures s (fun _ => Moves now (s.purged now)) (Moves now (s.purged now)) := by
  have hrest (u : Scheduler) (launched : List AttemptId) (hu : Moves now (s.purged now) u) :
      (schedule now >>= fun _ => pure launched).Ensures u (fun _ => Moves now (s.purged now))
        (Moves now (s.purged now)) := by
    rw [ensures_bind]
    exact ensures_final.2 (hu.tail .schedule)
  unfold tick
  rw [ensures_bind, ensures_get, hlive]
  show (modify _ >>= _ : Scheduling (List AttemptId)).Ensures s _ _
  rw [ensures_bind, ensures_modify, ensures_bind, ensures_get]
  show (if (s.purged now).isExecuting = true then
      speculate now >>= fun launched => schedule now >>= fun _ => pure launched
    else pure [] >>= fun launched => schedule now >>= fun _ => pure launched :
      Scheduling (List AttemptId)).Ensures (s.purged now) _ _
  split
  · next hexecuting =>
    exact ensures_bind_of_final (P := Moves now (s.purged now))
      (.single (.speculate hexecuting hlive)) (fun launched u _ hu => hrest u launched hu)
      fun _ hu => hu
  · exact hrest _ [] .refl

/-! ## Every call -/

/-- A reported success opens with the win, if there is one, and goes on by moves. -/
theorem ensures_attemptFinished {id : AttemptId} {inputBytes outputBytes : Option Nat} :
    (attemptFinished id inputBytes outputBytes now).Ensures s
      (fun _ => Leads now s (.event (.finished id inputBytes outputBytes)) none)
      (Leads now s (.event (.finished id inputBytes outputBytes)) none) := by
  by_cases h : s.graph.Awaits id
  · rw [ensures_congr (attemptFinished_of_awaits h)]
    exact ensures_schedule_of_opening (.finished h)
  · have hstay : Leads now s (.event (.finished id inputBytes outputBytes)) none s :=
      .of_moves (.nothing (ended?_finished_none h)) .refl
    unfold attemptFinished
    rw [ensures_bind]
    exact ensures_report (fun _ _ => hstay) (fun _ => hstay) fun hawaits => absurd hawaits h

/-- A reported failure opens with the loss, if there is one, and goes on by moves. -/
theorem ensures_attemptFailed {id : AttemptId} :
    (attemptFailed id now).Ensures s (fun _ => Leads now s (.event (.failed id)) none)
      (Leads now s (.event (.failed id)) none) := by
  have hstay (h : ¬s.graph.Awaits id) : Leads now s (.event (.failed id)) none s :=
    .of_moves (.nothing (ended?_failed_none h)) .refl
  unfold attemptFailed
  rw [ensures_bind]
  apply ensures_report (fun h _ => hstay h) hstay
  intro h
  have hopen : Opening now s (.event (.failed id)) (s.advanced id (·.fail now)) := .failed h
  split
  · next heq => cases heq
  · exact ensures_schedule_of_opening hopen
  · exact .of_moves hopen (.single (.giveUp _))

/-- Carrying out a request opens with the restarts and goes on by moves. -/
theorem ensures_applyScale {request : ScaleRequest} :
    (applyScale request now).Ensures s (fun _ => Leads now s (.event (.scaled request)) none)
      (Leads now s (.event (.scaled request)) none) := by
  unfold applyScale
  rw [ensures_bind, ensures_get]
  split
  · exact .of_moves (.nothing rfl) .refl
  · next h =>
    have hrescaling : s.status = .rescaling := by simpa using h
    have hopen : Opening now s (.event (.scaled request)) ((restartAll request now).final s) :=
      .scaled hrescaling
    -- A restart may be refused half-way; what was changed until then is the opening.
    apply ensures_bind_of_final (P := fun t => Opening now s (.event (.scaled request)) t) hopen
    · intro _ t _ ht
      apply ensures_bind_of_final (P := Moves now t) (.single .look)
      · intro _ u _ hu
        exact ensures_final.2 (.of_moves ht (hu.tail .schedule))
      · intro u hu
        exact .of_moves ht hu
    · intro t ht
      exact .of_moves ht .refl

/-- Every call opens and goes on by moves: it `Leads` to where it ends, whether or not it
returns. -/
theorem ensures_perform (s : Scheduler) (now : Instant) (c : Call) :
    (c.perform now).Ensures s (Leads now s c) (Leads now s c none) := by
  cases c with
  | tick =>
    unfold Call.perform
    rw [ensures_bind]
    cases hlive : s.status.isTerminal with
    | true =>
      unfold tick
      rw [ensures_bind, ensures_get, hlive]
      exact .of_moves (.nothing rfl) .refl
    | false =>
      exact (ensures_tick hlive).mono (fun _ _ hu => .of_moves .tick hu) fun _ hu =>
        .of_moves .tick hu
  | poll =>
    show (Scheduler.poll now).Ensures s _ _
    unfold poll
    rw [ensures_bind, ensures_get]
    split
    · exact .of_moves (.nothing rfl) .refl
    · exact ensures_look_of_opening (checkSlotRequests now) (.nothing rfl)
        fun _ => ensures_checkSlotRequests .refl fun e => .single (.giveUp e)
  | event e =>
    cases e with
    | running id =>
      show (attemptRunning id now >>= _ : Scheduling (Option ScaleRequest)).Ensures s _ _
      unfold attemptRunning
      rw [ensures_bind, ensures_bind]
      exact ensures_report (fun _ _ => .of_moves (.nothing rfl) .refl)
        (fun _ => .of_moves (.nothing rfl) .refl) fun h => .of_moves (.running h) .refl
    | progress id bytes =>
      show (attemptProgressed id bytes >>= _ : Scheduling (Option ScaleRequest)).Ensures s _ _
      unfold attemptProgressed
      rw [ensures_bind, ensures_bind]
      exact ensures_report (fun _ _ => .of_moves (.nothing rfl) .refl)
        (fun _ => .of_moves (.nothing rfl) .refl) fun h => .of_moves (.progress h) .refl
    | finished id inputBytes outputBytes =>
      show (attemptFinished id inputBytes outputBytes now >>= _ :
        Scheduling (Option ScaleRequest)).Ensures s _ _
      rw [ensures_bind]
      exact ensures_attemptFinished.mono (fun _ _ hu => hu) fun _ hu => hu
    | failed id =>
      show (attemptFailed id now >>= _ : Scheduling (Option ScaleRequest)).Ensures s _ _
      rw [ensures_bind]
      exact ensures_attemptFailed.mono (fun _ _ hu => hu) fun _ hu => hu
    | resources view =>
      show (resourcesChanged view now).Ensures s _ _
      unfold resourcesChanged
      rw [ensures_bind, ensures_get]
      split
      · exact .of_moves (.nothing rfl) .refl
      · exact ensures_look_of_opening (t := s.viewing view) (pure ()) .resources
          fun _ => Relation.ReflTransGen.refl
    | scaled request =>
      show (applyScale request now >>= _ : Scheduling (Option ScaleRequest)).Ensures s _ _
      rw [ensures_bind]
      exact ensures_applyScale.mono (fun _ _ hu => hu) fun _ hu => hu

/-- Every call opens and goes on by moves, to the state `s.after now c`. -/
theorem after_moves (s : Scheduler) (now : Instant) (c : Call) :
    ∃ t, Opening now s c t ∧ Moves now t (s.after now c) := by
  refine (ensures_final (P := fun u => ∃ t, Opening now s c t ∧ Moves now t u)).1 ?_
  refine (ensures_perform s now c).mono ?_ ?_
  · intro _ u hu
    obtain ⟨t, hopen, hmoves, -⟩ := hu
    exact ⟨t, hopen, hmoves⟩
  · -- A refused or abandoned call has come some of the way.
    intro u hu
    obtain ⟨t, hopen, hmoves, -⟩ := hu
    exact ⟨t, hopen, hmoves⟩

/-! ## Invariants of openings -/

/-- Of a job in `.rescaling` a restart is asked for: its controller is `.evaluating` a request. -/
theorem phase_of_rescaling (h : s.status = .rescaling) :
    ∃ request, s.controller.phase = .evaluating request := by
  unfold status at h
  split at h
  · cases h
  · split at h
    · cases h
    · cases hphase : s.controller.phase with
      | evaluating request => exact ⟨request, rfl⟩
      | waiting | running | failed => rw [hphase] at h; cases h

/-- The vertices of a request are restarted one by one, those that are unfinished, with
`parallelism ≠ 0`. What a single restart keeps is kept. -/
theorem restartAll_keeps_planned {J : Scheduler → Prop} {request : ScaleRequest} (hs : J s)
    (hrestart : ∀ (t : Scheduler) (vertex : VertexId) (parallelism : Nat),
      request.plan[vertex]? = some parallelism → parallelism ≠ 0 →
        (t.graph.unfinished? vertex).isSome = true → J t → J (t.restarted vertex parallelism now))
    (hawait : ∀ t, J t →
      J { t with rescales := t.rescales + 1, controller := t.controller.awaitRestart now }) :
    J ((restartAll request now).final s) := by
  refine ensures_final.1 ?_
  unfold restartAll
  rw [ensures_bind]
  refine (Ensures.forM (fun rest t => J t ∧
    ∀ planned ∈ rest, request.plan[planned.1]? = some planned.2) ?_ _ _ ⟨hs, ?_⟩).mono
    (fun _ t ht => hawait t ht.1) fun _ ht => ht
  · rintro ⟨vertex, parallelism⟩ rest t ⟨ht, hrest⟩
    obtain ⟨hplan, hlater⟩ := List.forall_mem_cons.1 hrest
    unfold restartPlanned
    rw [ensures_bind, ensures_get]
    split
    · next hopen =>
      exact ensures_restart (fun _ => ht) fun hpos =>
        ⟨hrestart t vertex parallelism hplan hpos (isSome_unfinished?.trans hopen) ht, hlater⟩
    · exact ⟨ht, hlater⟩
  · intro planned hplanned
    exact Std.ExtTreeMap.mem_toList_iff_getElem?_eq_some.1 hplanned

/-- What every restart of an unfinished vertex keeps, whatever its plan says, is kept by
`restartAll`. -/
theorem restartAll_keeps {J : Scheduler → Prop} {request : ScaleRequest} (hs : J s)
    (hrestart : ∀ t vertex parallelism, parallelism ≠ 0 →
      (t.graph.unfinished? vertex).isSome = true → J t → J (t.restarted vertex parallelism now))
    (hawait : ∀ t, J t →
      J { t with rescales := t.rescales + 1, controller := t.controller.awaitRestart now }) :
    J ((restartAll request now).final s) :=
  restartAll_keeps_planned hs
    (fun t vertex parallelism _ hpos hopen ht => hrestart t vertex parallelism hpos hopen ht) hawait

/-- A win of an awaited attempt leaves a sound state. -/
theorem Sound.won {id : AttemptId} {inputBytes outputBytes : Option Nat} (hs : s.Sound)
    (hid : s.graph.Awaits id) : (s.won id inputBytes outputBytes now).Sound := by
  have hwin : (s.winning id inputBytes outputBytes now).Sound :=
    ⟨hs.wellFormed.win hid, hs.settled.win, hs.nodup_order⟩
  unfold Scheduler.won
  split
  · exact hwin.of_eq rfl rfl
  · exact hwin

/-- A step of an awaited attempt that keeps its `id` and does not finish it leaves a sound state. -/
theorem Sound.advanced {id : AttemptId} {advance : Attempt → Attempt} (hs : s.Sound)
    (hid : s.graph.Awaits id) (hkeep : ∀ a, (advance a).id = a.id)
    (hadvance : ∀ a, a.isActive = true → (advance a).status ≠ .finished) :
    (s.advanced id advance).Sound :=
  ⟨hs.wellFormed.modifyAttempt hid.isActive hkeep hadvance, hs.settled.modifyAttempt hid,
    hs.nodup_order⟩

/-- What comes before the look of a call leaves a sound state. -/
theorem Opening.sound {c : Call} (h : Opening now s c t) (hs : s.Sound) : t.Sound := by
  cases h with
  | nothing => exact hs
  | running awaits =>
    apply hs.advanced awaits (fun a => Attempt.id_run a now)
    intro a _
    rw [Attempt.status_run]
    exact AttemptStatus.noConfusion
  | progress awaits =>
    -- The status stays as it is, and that of an active attempt is not the finished one.
    refine hs.advanced awaits (fun _ => rfl) ?_
    intro a hactive hfinished
    have hstatus : a.status = .finished := hfinished
    rw [Attempt.isActive, hstatus] at hactive
    cases hactive
  | finished awaits => exact hs.won awaits
  | failed awaits => exact hs.advanced awaits (fun _ => rfl) fun _ _ => AttemptStatus.noConfusion
  | resources => exact hs.of_eq rfl rfl
  | scaled =>
    exact restartAll_keeps hs (fun _ _ _ hpos _ ht => ht.restarted hpos) fun _ ht =>
      ht.of_eq rfl rfl
  | tick => exact hs.of_eq rfl rfl

/-! ## Runs -/

/-- Every call opens and goes on by steps, to the state `s.after now c`. -/
theorem after_steps (hs : s.Sound) (now : Instant) (c : Call) :
    ∃ t, Opening now s c t ∧ Steps now t (s.after now c) := by
  obtain ⟨t, hopen, hmoves⟩ := after_moves s now c
  exact ⟨t, hopen, hmoves.steps (hopen.sound hs)⟩

/-- A call with an answer has returned it: it ended with `.ok (some request)`. -/
theorem exists_of_answer {c : Call} {request : ScaleRequest} (h : s.answer now c = some request) :
    ∃ u, c.perform now s = .ok (some request) u := by
  unfold answer at h
  split at h
  · next u heq => exact ⟨u, h ▸ heq⟩
  · cases h

/-- A request for a restart comes from the look that follows the opening of its call. -/
theorem answer_look (hs : s.Sound) {c : Call} {request : ScaleRequest}
    (h : s.answer now c = some request) : ∃ t w, Opening now s c t ∧
      look now t = .ok (some request) w ∧ Steps now w (s.after now c) := by
  obtain ⟨u, hcall⟩ := exists_of_answer h
  obtain ⟨t, hopen, -, hanswer⟩ := (ensures_of_eq_ok hcall).1 (ensures_perform s now c)
  obtain ⟨w, hlook, hmoves⟩ := hanswer request rfl
  have hw : w.Sound := final_of_eq_ok hlook ▸ (hopen.sound hs).look
  refine ⟨t, w, hopen, hlook, ?_⟩
  rw [after, final_of_eq_ok hcall]
  exact hmoves.steps hw

/-- What openings and steps keep is kept by every call: `J` holds of `s.after now c` if it holds of
`s`. -/
theorem after_keeps {J : Scheduler → Prop} (hs : s.Sound) {c : Call}
    (hopen : ∀ t, Opening now s c t → J s → J t) (hstep : ∀ t u, Step now t u → J t → J u)
    (h : J s) : J (s.after now c) := by
  obtain ⟨t, hopening, hsteps⟩ := after_steps hs now c
  exact hsteps.keeps hstep (hopen t hopening h)

/-- Every call leaves a sound state. -/
theorem Sound.after (hs : s.Sound) (now : Instant) (c : Call) : (s.after now c).Sound :=
  after_keeps hs (fun _ hopen => hopen.sound) (fun _ _ hstep => hstep.sound) hs

/-- Every history leaves a sound state. -/
theorem Sound.run (hs : s.Sound) (history : History) : (s.run history).Sound :=
  run_induction hs (fun _ now c ht => ht.after now c) history

/-- What openings and steps keep, whenever they come, is kept by every history: `J` is an invariant
of `run`. -/
theorem run_keeps {J : Scheduler → Prop} (hs : s.Sound)
    (hopen : ∀ now t c u, Opening now t c u → J t → J u)
    (hstep : ∀ now t u, Step now t u → J t → J u) (h : J s) (history : History) :
    J (s.run history) := by
  -- The calls keep it in sound states only, so the induction carries both.
  have hboth := run_induction (J := fun t => t.Sound ∧ J t) ⟨hs, h⟩
    (fun t now c ht => ⟨ht.1.after now c,
      after_keeps ht.1 (fun u hu => hopen now t c u hu) (hstep now) ht.2⟩) history
  exact hboth.2

/-! ## Visited states -/

/-- The states that a job comes to, after its calls and in the middle of a call. -/
def Visits (s : Scheduler) (now : Instant) (u : Scheduler) : Prop :=
  ∃ history c t, Opening now (s.run history) c t ∧ Moves now t u

/-- The state after a history is one that the job comes to. -/
theorem visits_run (s : Scheduler) (history : History) (now : Instant) :
    s.Visits now (s.run history) :=
  ⟨history, .poll, _, .nothing rfl, .refl⟩

/-- What openings and moves keep holds in every state that a job `Visits`. -/
theorem Visits.keeps {J : Scheduler → Prop} (hopen : ∀ now t c u, Opening now t c u → J t → J u)
    (hmove : ∀ now t u, Move now t u → J t → J u) (h : J s) (hu : s.Visits now u) : J u := by
  obtain ⟨history, c, t, hopening, hmoves⟩ := hu
  have hrun : J (s.run history) := by
    refine run_induction h ?_ history
    intro t now c ht
    obtain ⟨u, hu, hrest⟩ := after_moves t now c
    exact hrest.keeps (hmove now) (hopen now t c u hu ht)
  exact hmoves.keeps (hmove now) (hopen now _ c t hopening hrun)

/-- What openings and steps keep holds in every state that a job `Visits`, and that state is
sound. -/
theorem Visits.keeps_of_steps {J : Scheduler → Prop} (hs : s.Sound)
    (hopen : ∀ now t c u, Opening now t c u → J t → J u)
    (hstep : ∀ now t u, Step now t u → J t → J u) (h : J s) (hu : s.Visits now u) :
    u.Sound ∧ J u := by
  refine Visits.keeps (J := fun t => t.Sound ∧ J t) ?_ ?_ ⟨hs, h⟩ hu
  · intro now t c u hopening ht
    exact ⟨hopening.sound ht.1, hopen now t c u hopening ht.2⟩
  · intro now t u hmove ht
    have hsteps := hmove.steps ht.1
    exact ⟨hsteps.sound ht.1, hsteps.keeps (hstep now) ht.2⟩

/-! ## The job -/

/-- What comes before the look of a call changes neither the settings nor the job. -/
theorem Opening.sameJob {c : Call} (h : Opening now s c t) : s.SameJob t := by
  cases h with
  | finished => unfold won; split <;> exact ⟨rfl, rfl, rfl⟩
  | scaled =>
    exact restartAll_keeps (J := s.SameJob) (SameJob.refl s) (fun _ _ _ _ _ ht => ht)
      fun _ ht => ht
  | nothing | running | progress | failed | resources | tick => exact ⟨rfl, rfl, rfl⟩

/-- No call changes the settings, the job or the order of its vertices. -/
theorem sameJob_after (hs : s.Sound) (now : Instant) (c : Call) : s.SameJob (s.after now c) :=
  after_keeps (J := s.SameJob) hs (fun _ hopen _ => hopen.sameJob)
    (fun _ _ hstep ht => ht.trans hstep.sameJob) (SameJob.refl s)

/-- No history changes the settings, the job or the order of its vertices:
`s.SameJob (s.run history)`. -/
theorem sameJob_run (hs : s.Sound) (history : History) : s.SameJob (s.run history) :=
  run_keeps (J := s.SameJob) hs (fun _ _ _ _ hopen ht => ht.trans hopen.sameJob)
    (fun _ _ _ hstep ht => ht.trans hstep.sameJob) (SameJob.refl s) history

end AdaptiveBatch.Scheduler
