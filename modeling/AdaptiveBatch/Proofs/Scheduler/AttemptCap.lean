import AdaptiveBatch.Proofs.Config.Validation
import AdaptiveBatch.Proofs.Scheduler.Calls
import AdaptiveBatch.Proofs.Scheduler.Submission

/-! # How many attempts a task has at a time

Attempts are added in two ways: a task that needs a slot gets its first active attempt, a slow task
gets one more as long as it has fewer than the settings allow. Nothing else adds an active attempt:
reports, cancellations and restarts at most take some away. So the number of active attempts of a task
never exceeds the configured one, which is checked to be at least one.

* **`Task.activeCount_push`**, **`Task.activeCount_modifyAttempt_le`** — one more attempt, and a step
  of an attempt that is active already;
* **`ExecutionGraph.Capped`** — no task has more than so many active attempts;
* **`Scheduler.WithinCap`** — the invariant, kept by every opening and every step;
* **`Scheduler.attempts_within_cap`** — the number of active attempts in every history. -/

namespace AdaptiveBatch

/-! ## Tasks -/

/-- Changing an element that is counted already does not raise the count: `countP p` is at most as
high. -/
theorem countP_modify_le {α : Type} {p : α → Bool} {f : α → α} {l : List α} {n : Nat}
    (h : ∀ a ∈ l[n]?, p a = true) : (l.modify n f).countP p ≤ l.countP p := by
  induction l generalizing n with
  | nil => simp
  | cons first rest ih =>
    cases n with
    | zero =>
      have hfirst : p first = true := h first rfl
      rw [List.modify_zero_cons, List.countP_cons, List.countP_cons, hfirst]
      split <;> simp
    | succ n =>
      have hrest := ih (n := n) h
      rw [List.modify_succ_cons, List.countP_cons, List.countP_cons]
      omega

namespace Task

variable {t : Task} {a : Attempt} {n : Nat} {f : Attempt → Attempt}

/-- A task without attempts has no active ones. -/
theorem activeCount_of_attempts_eq_nil (h : t.attempts = []) : t.activeCount = 0 := by
  rw [activeCount, activeAttempts, h]
  rfl

/-- One more attempt raises the count of active ones by one if it is active. -/
theorem activeCount_push :
    (t.push a).activeCount = t.activeCount + if a.isActive = true then 1 else 0 := by
  unfold activeCount activeAttempts push
  rw [List.filter_append, List.length_append]
  cases ha : a.isActive <;> simp [ha]

/-- A step of the active attempt number `n` leaves at most as many active ones. -/
theorem activeCount_modifyAttempt_le (h : t.IsActive n) :
    (t.modifyAttempt n f).activeCount ≤ t.activeCount := by
  unfold activeCount activeAttempts modifyAttempt
  rw [← List.countP_eq_length_filter, ← List.countP_eq_length_filter]
  apply countP_modify_le
  intro b hb
  obtain ⟨a, ha, hactive⟩ := h
  obtain rfl : a = b := Option.some.inj (ha.symm.trans hb)
  exact hactive

end Task

/-! ## Graphs -/

namespace ExecutionGraph

variable {g : ExecutionGraph} {n : Nat} {id : AttemptId} {vertex : VertexId} {now : Instant}

/-- No task has more than so many active attempts. -/
def Capped (g : ExecutionGraph) (n : Nat) : Prop := g.EachTask fun t => t.activeCount ≤ n

/-- In the empty graph no task exceeds any cap. -/
theorem capped_empty : (∅ : ExecutionGraph).Capped n := by
  intro vertex v k t hv
  rw [get?_empty] at hv
  cases hv

/-- A step of an active attempt keeps the cap `n`. -/
theorem Capped.modifyAttempt (h : g.Capped n) (hid : g.IsActive id) {f : Attempt → Attempt} :
    (g.modifyAttempt id f).Capped n := by
  obtain ⟨v, t, hv, -, htask, hactive⟩ := hid.exists_task
  apply EachTask.modifyTask h
  intro w t' hw ht'
  obtain ⟨rfl, rfl⟩ := task_unique hv htask hw ht'
  exact Nat.le_trans (Task.activeCount_modifyAttempt_le hactive) (h _ v _ t hv htask)

/-- A win keeps the cap: the won task has no active attempts. -/
theorem Capped.win (h : g.Capped n) (inputBytes outputBytes : Option Nat) :
    (g.win id inputBytes outputBytes now).Capped n := by
  apply EachTask.modifyTask h
  intro v t _ _
  show (t.win id.number inputBytes outputBytes now).activeAttempts.length ≤ n
  rw [Task.activeAttempts_win]
  exact Nat.zero_le n

/-- Cancellations keep the cap. -/
theorem Capped.cancelEach (h : g.Capped n) (ids : List AttemptId) : (g.cancelEach ids now).Capped n :=
  cancelEach_keeps (J := fun g => g.Capped n) h
    (fun _ _ hid hg => Capped.modifyAttempt hg hid.isActive) ids

/-- Regenerating a vertex keeps the cap: the tasks of a new generation have no attempts. -/
theorem Capped.regenerate (h : g.Capped n) (parallelism : Nat) :
    (g.regenerate vertex parallelism now).Capped n := by
  apply EachTask.regenerate h
  intro t hnone
  rw [Task.activeCount_of_attempts_eq_nil hnone]
  exact Nat.zero_le n

/-- A task with fewer than `n` active attempts can get one more. -/
theorem Capped.push (h : g.Capped n) {a : Attempt}
    (hfew : ∀ t ∈ g.taskAt? a.id.vertex a.id.subtask, t.activeCount < n) : (g.push a).Capped n := by
  apply EachTask.modifyTask h
  intro v t hv ht
  have hlt := hfew t (taskAt?_eq_some_iff.2 ⟨v, hv, ht⟩)
  rw [Task.activeCount_push]
  split
  · exact hlt
  · exact Nat.le_of_lt hlt

end ExecutionGraph

/-! ## Schedulers -/

namespace Scheduler

open ExecutionGraph

variable {s t : Scheduler} {now : Instant} {n : Nat}

/-- The settings allow so many active attempts of a task, and no task has more. -/
structure WithinCap (n : Nat) (s : Scheduler) : Prop where
  /-- The settings allow so many. -/
  settings_eq : s.speculation.settings.maxConcurrentExecutions = n
  /-- No task has more. -/
  capped : s.graph.Capped n

/-- A task with fewer than `n` active attempts can get one more, whatever the backend answers. -/
theorem capped_placed {v : VertexExecution} {task : Task} {vertex : VertexId} {subtask : Nat}
    {node : NodeId} {speculative : Bool} (h : s.graph.Capped n)
    (hv : s.graph.get? vertex = some v) (ht : v.tasks[subtask]? = some task)
    (hlt : task.activeCount < n) :
    (s.placed (v.nextId vertex subtask task) node speculative now).graph.Capped n := by
  have hplace : ∀ t ∈ s.graph.taskAt? vertex subtask, t.activeCount < n := by
    intro t ht'
    rw [taskAt?_eq_some_iff.2 ⟨v, hv, ht⟩] at ht'
    cases ht'
    exact hlt
  refine ExecutionGraph.Capped.push h ?_
  -- The attempt belongs to this task in both cases.
  split <;> exact hplace

/-- What comes before the look of a call keeps the cap. -/
theorem Opening.capped {c : Call} (h : Opening now s c t) (hs : s.graph.Capped n) :
    t.graph.Capped n := by
  cases h with
  | nothing | resources | tick => exact hs
  | running awaits | progress awaits | failed awaits => exact hs.modifyAttempt awaits.isActive
  | finished =>
    unfold won
    split <;> exact hs.win _ _
  | scaled =>
    exact restartAll_keeps (J := fun t => t.graph.Capped n) hs
      (fun _ _ parallelism _ _ ht => ht.regenerate parallelism) fun _ ht => ht

/-- A slow task gets one more attempt if it has fewer than `maxConcurrentExecutions`, any other task
if it has none; both keep the cap. -/
theorem WithinCap.placed {v : VertexExecution} {task : Task} {vertex : VertexId} {subtask : Nat}
    {node : NodeId} {speculative : Bool} (h : s.WithinCap n) (hn : n ≠ 0)
    (hv : s.graph.get? vertex = some v) (ht : v.tasks[subtask]? = some task)
    (hfew : task.activeCount <
      if speculative then s.speculation.settings.maxConcurrentExecutions else 1) :
    (s.placed (v.nextId vertex subtask task) node speculative now).WithinCap n := by
  refine ⟨h.settings_eq, capped_placed h.capped hv ht ?_⟩
  rw [h.settings_eq] at hfew
  split at hfew <;> omega

/-- Starting a vertex over keeps the cap and the settings. -/
theorem WithinCap.restarted (h : s.WithinCap n) (vertex : VertexId) (parallelism : Nat) :
    (s.restarted vertex parallelism now).WithinCap n :=
  ⟨h.settings_eq, h.capped.regenerate parallelism⟩

/-- Ending the job with a failure keeps the cap and the settings. -/
theorem WithinCap.fail (h : s.WithinCap n) (e : SchedulerError) : (s.fail e now).WithinCap n :=
  ⟨h.settings_eq, h.capped.cancelEach _⟩

/-- Every step of a call keeps the cap, those of `speculate` included. -/
theorem Step.withinCap (h : Step now s t) (hn : n ≠ 0) (hs : s.WithinCap n) : t.WithinCap n := by
  cases h with
  | place executing live vertex_eq task_eq winner_eq few room =>
    exact hs.placed hn vertex_eq task_eq few
  | start => exact ⟨hs.settings_eq, hs.capped.regenerate _⟩
  | look =>
    exact look_keeps hs (fun _ _ _ => ⟨hs.settings_eq, hs.capped⟩)
      (fun _ vertex parallelism _ ht => ht.restarted vertex parallelism)
      (fun _ _ ht => ⟨ht.settings_eq, ht.capped⟩) fun _ e ht => ht.fail e
  | giveUp e => exact hs.fail e
  | react executing live reacts =>
    have hmax := congrArg SpeculativeConfig.maxConcurrentExecutions reacts.settings_eq
    exact ⟨hmax.trans hs.settings_eq, hs.capped⟩
  | count => exact ⟨hs.settings_eq, hs.capped⟩

/-- What comes before the look of a call does not change the settings of speculation. -/
theorem Opening.speculation_eq {c : Call} (h : Opening now s c t) :
    t.speculation = s.speculation := by
  cases h with
  | finished => unfold won; split <;> rfl
  | scaled =>
    exact restartAll_keeps (J := fun t => t.speculation = s.speculation) rfl
      (fun _ _ _ _ _ ht => ht) fun _ ht => ht
  | nothing | running | progress | failed | resources | tick => rfl

/-- What comes before the look of a call keeps the cap and the settings. -/
theorem Opening.withinCap {c : Call} (h : Opening now s c t) (hs : s.WithinCap n) :
    t.WithinCap n :=
  ⟨by rw [h.speculation_eq, hs.settings_eq], h.capped hs.capped⟩

/-- A new job is within the cap `maxConcurrentExecutions` of its configuration, which allows every
task an attempt. -/
theorem WithinCap.of_submit {config : Config} {job : JobGraph} {backend : Backend}
    (h : submit config job backend now = .ok s) :
    s.WithinCap config.speculative.maxConcurrentExecutions := by
  obtain ⟨order, -, -, rfl⟩ := submit_eq_ok h
  exact ⟨rfl, capped_empty⟩

/-- In every state that a submitted job comes to, whatever it is told, no task has more active
attempts than the settings allow (`maxConcurrentExecutions`), and a task that is won has none. -/
theorem attempts_within_cap {config : Config} {job : JobGraph} {backend : Backend} {start : Instant}
    (h : submit config job backend start = .ok s) (history : History) (vertex : VertexId)
    (v : VertexExecution) (hv : (s.run history).graph.get? vertex = some v) :
    ∀ t ∈ v.tasks, t.activeCount ≤ config.speculative.maxConcurrentExecutions ∧
      (t.winner.isSome = true → t.activeAttempts = []) := by
  have hn : config.speculative.maxConcurrentExecutions ≠ 0 :=
    (Config.validate_eq_ok_iff.1 (submit_eq_ok_iff.1 h).1).2.2.1
  have hsound := Sound.of_submit h
  have hcap : (s.run history).WithinCap config.speculative.maxConcurrentExecutions :=
    run_keeps hsound (fun _ _ _ _ hopen => hopen.withinCap)
      (fun _ _ _ hstep => hstep.withinCap hn) (.of_submit h) history
  intro t ht
  obtain ⟨k, hk⟩ := List.mem_iff_getElem?.1 ht
  exact ⟨hcap.capped vertex v k t hv hk, (hsound.run history).settled vertex v k t hv hk⟩

/-- The straggler has two attempts, one of them `speculative`, as many as it may have, and gets no
third one although it is still slow and a slot is free; the task that is won has none. -/
theorem attempts_within_cap_sample : ∃ s v t u,
    submit Sample.watchful Sample.twins .willing .origin = .ok s ∧
      (s.run Sample.straggling).graph.get? "source" = some v ∧ t ∈ v.tasks ∧ u ∈ v.tasks ∧
      (t.activeCount = 2 ∧ 2 ≤ Sample.watchful.speculative.maxConcurrentExecutions) ∧
      (∃ a ∈ t.activeAttempts, a.speculative = true) ∧
      u.winner = some 0 ∧ u.activeAttempts = [] := by
  obtain ⟨s, hs, heval⟩ := Sample.exists_watchful
    (P := fun s => ((s.run Sample.straggling).graph.get? "source").any fun v =>
      v.tasks[1]?.any (fun t => t.activeCount = 2 ∧ t.activeAttempts.any (·.speculative)) &&
        v.tasks[0]?.any fun u => u.winner = some 0)
    (by decide +kernel)
  obtain ⟨v, hv, hboth⟩ := (Option.any_eq_true _ _).1 heval
  obtain ⟨hfirst, hsecond⟩ := Bool.and_eq_true_iff.1 hboth
  obtain ⟨t, ht, hcounts⟩ := (Option.any_eq_true _ _).1 hfirst
  obtain ⟨u, hu, hw⟩ := (Option.any_eq_true _ _).1 hsecond
  obtain ⟨hactive, hspeculative⟩ := of_decide_eq_true hcounts
  have hwinner : u.winner = some 0 := of_decide_eq_true hw
  have hcap := attempts_within_cap hs Sample.straggling "source" v hv
  have htmem : t ∈ v.tasks := List.mem_of_getElem? ht
  have humem : u ∈ v.tasks := List.mem_of_getElem? hu
  refine ⟨s, v, t, u, hs, hv, htmem, humem, ⟨hactive, ?_⟩, List.any_eq_true.1 hspeculative, hwinner,
    ?_⟩
  · rw [← hactive]
    exact (hcap t htmem).1
  · exact (hcap u humem).2 (by rw [hwinner]; rfl)

end Scheduler

end AdaptiveBatch
