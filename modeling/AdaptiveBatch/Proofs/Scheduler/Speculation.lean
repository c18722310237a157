import AdaptiveBatch.Proofs.Scheduler.Passes
import AdaptiveBatch.Proofs.Straggler.Launches
import AdaptiveBatch.Scheduler.Reports

/-! # Launches are steps

The launches for slow tasks are planned before the first of them is carried out. An invariant of the
loop says that the rest of the plan can still be carried out: no node hosts more attempts than were
planned, and the remaining tasks are as they were.

* **`Scheduler.Launching`** — the invariant;
* **`Scheduler.ensures_speculate`** — launches for slow tasks are steps;
* **`Scheduler.speculate_eq_of_disabled`** — unless the settings ask for them, there are none. -/

namespace AdaptiveBatch.Scheduler

open Scheduling ExecutionGraph

variable {s t : Scheduler} {now : Instant} {E : Scheduler → Prop}

/-- The scheduler has come from another state by steady steps, and attempts may be started. -/
structure Underway (now : Instant) (s t : Scheduler) : Prop where
  /-- It has come so far by steady steps. -/
  steady : SteadySteps now s t
  /-- The job runs. -/
  executing : t.isExecuting = true
  /-- It has not ended. -/
  live : t.status.isTerminal = false

/-- The rest of a planned list can still be launched: no node hosts more attempts than were planned,
and the remaining tasks are as they were. -/
structure Launching (now : Instant) (s t : Scheduler) (launches rest : List Launch)
    (u : Scheduler) : Prop where
  /-- The launches so far were steps. -/
  underway : Underway now s u
  /-- No node hosts more attempts than were planned. -/
  counts : ∃ before, before ++ rest = launches ∧ ∀ vertex node,
    (u.graph.vertexNodeCounts vertex).on node ≤
      (t.graph.vertexNodeCounts vertex).on node + launchesOn before vertex node
  /-- The remaining tasks are as they were. -/
  tasks : ∀ l ∈ rest, u.graph.taskAt? l.task.vertex l.task.subtask =
    t.graph.taskAt? l.task.vertex l.task.subtask
  /-- The resources are as they were. -/
  view_eq : u.view = t.view
  /-- The blocked nodes are as they were. -/
  slow_eq : u.slow = t.slow
  /-- So is the number of attempts a task may have. -/
  settings_eq : u.speculation.settings = t.speculation.settings

/-- A task that may get one more attempt is in the current generation, has no `winner`, and fewer
active attempts than `maxConcurrentExecutions`. -/
theorem taskAt?_of_candidate? {sp : Speculation} {g : ExecutionGraph} {key : TaskKey} {task : Task}
    (h : sp.candidate? g key = some task) : g.taskAt? key.vertex key.subtask = some task ∧
      task.winner = none ∧ task.activeCount < sp.settings.maxConcurrentExecutions ∧
        (g.get? key.vertex).map (·.generation) = some key.generation := by
  obtain ⟨v, hv, hgen, htask, hw, hfew⟩ := Speculation.candidate?_eq_some_iff.1 h
  exact ⟨taskAt?_eq_some_iff.2 ⟨v, hv, htask⟩, hw, hfew, by rw [hv, Option.map_some, hgen]⟩

/-- A launch is carried out as planned, and leaves the `rest` of the launches to come. -/
theorem ensures_launch (sp : Speculation) {launches rest : List Launch} {l : Launch}
    {u : Scheduler} (hsettings : sp.settings = t.speculation.settings)
    (hplanned : sp.Planned { graph := t.graph, view := t.view, slow := t.slow, now } launches)
    (hnodup : ((l :: rest).map fun l => (l.task.vertex, l.task.subtask)).Nodup)
    (h : Launching now s t launches (l :: rest) u) :
    (launch now l).Ensures u (fun _ => Launching now s t launches rest) E := by
  obtain ⟨before, hsplit, hcounts⟩ := h.counts
  obtain ⟨⟨task, hcandidate⟩, hmem, hblocked, hroom⟩ := hplanned before l rest hsplit.symm
  obtain ⟨htask, hw, hfew, -⟩ := taskAt?_of_candidate? hcandidate
  obtain ⟨v, hv, ht⟩ := taskAt?_eq_some_iff.1 ((h.tasks l List.mem_cons_self).trans htask)
  have hstep : Step now u
      (u.placed (v.nextId l.task.vertex l.task.subtask task) l.node true now) := by
    -- The plan has counted all launches before this one, of which some may have been refused.
    refine .place h.underway.executing h.underway.live hv ht hw ?_ ⟨?_, ?_, ?_⟩
    · rw [if_pos rfl, h.settings_eq, ← hsettings]
      exact hfew
    · rw [h.view_eq]
      exact hmem
    · rw [h.slow_eq]
      exact hblocked
    · rw [h.view_eq]
      exact Nat.lt_of_le_of_lt (hcounts _ _) hroom
  have hnext : Launching now s t launches rest
      (u.placed (v.nextId l.task.vertex l.task.subtask task) l.node true now) := by
    refine ⟨⟨h.underway.steady.tail ⟨hstep, rfl⟩, h.underway.executing, h.underway.live⟩,
      ⟨before ++ [l], by rw [List.append_assoc]; exact hsplit, ?_⟩,
      ?_, h.view_eq, h.slow_eq, h.settings_eq⟩
    · intro vertex node
      rw [on_vertexNodeCounts_placed hv ht, launchesOn_concat]
      have hold := hcounts vertex node
      -- A launch that the backend refuses was planned too, so the plan only counts too many.
      split
      · next hcond => rw [if_pos ⟨hcond.1, hcond.2.2⟩]; omega
      · split <;> omega
    · intro l' hl'
      have hne : ¬(l.task.vertex = l'.task.vertex ∧ l.task.subtask = l'.task.subtask) := by
        rintro ⟨hvertex, hsubtask⟩
        refine (List.nodup_cons.1 hnodup).1 (List.mem_map.2 ⟨l', hl', ?_⟩)
        exact Prod.ext hvertex.symm hsubtask.symm
      exact (taskAt?_placed hne).trans (h.tasks l' (List.mem_cons_of_mem _ hl'))
  unfold launch
  rw [ensures_bind, ensures_of_eq_ok (deploy_eq hv ht hw)]
  cases (u.backend.deploy (v.nextId l.task.vertex l.task.subtask task) l.node now).1 with
  | false => exact hnext
  | true =>
    -- The launch is also counted, in a number that no placement reads.
    refine ⟨⟨hnext.underway.steady.tail ⟨.count, rfl⟩, hnext.underway.executing,
      hnext.underway.live⟩, hnext.counts, hnext.tasks, hnext.view_eq, hnext.slow_eq,
      hnext.settings_eq⟩

/-- Planned launches belong to different tasks of the current generations, so to different pairs of
`vertex` and `subtask`. -/
theorem nodup_launchedTasks {sp : Speculation} {around : Surroundings} {launches : List Launch}
    (hplanned : sp.Planned around launches) (hnodup : (launches.map (·.task)).Nodup) :
    (launches.map fun l => (l.task.vertex, l.task.subtask)).Nodup := by
  have hgen : ∀ key ∈ launches.map (·.task),
      (around.graph.get? key.vertex).map (·.generation) = some key.generation := by
    intro key hkey
    obtain ⟨l, hl, rfl⟩ := List.mem_map.1 hkey
    obtain ⟨before, rest, hsplit⟩ := List.append_of_mem hl
    obtain ⟨task, hcandidate⟩ := (hplanned before l rest hsplit).candidate
    exact (taskAt?_of_candidate? hcandidate).2.2.2
  have hpairs := hnodup.map_on (f := fun key => (key.vertex, key.subtask)) ?_
  · rw [List.map_map] at hpairs
    exact hpairs
  · -- Two planned tasks of one place have the generation of the vertex, so they are the same.
    intro a ha b hb heq
    obtain ⟨hvertex, hsubtask⟩ := Prod.mk.inj heq
    have hgena := hgen a ha
    rw [hvertex, hgen b hb] at hgena
    exact TaskKey.ext hvertex hsubtask (Option.some.inj hgena).symm

/-- Planned `launches` are carried out by steady steps, one after the other. -/
theorem ensures_launches {launches : List Launch} {speculation : Speculation}
    {registry : SlowNodes} (hexecuting : s.isExecuting = true)
    (hlive : s.status.isTerminal = false) (hr : s.Reacts now launches speculation registry) :
    (launches.mapM (launch now)).Ensures (s.reacted speculation registry)
      (fun _ => Underway now (s.reacted speculation registry)) E := by
  obtain ⟨hplanned, hnodup, hsettings⟩ := Speculation.react_eq_ok hr
  have hpairs := nodup_launchedTasks hplanned hnodup
  let u : Scheduler := s.reacted speculation registry
  have hbegin : Launching now u u launches launches u :=
    ⟨⟨.refl, hexecuting, hlive⟩, ⟨[], rfl, fun _ _ => Nat.le_add_right _ _⟩, fun _ _ => rfl, rfl,
      rfl, rfl⟩
  refine (Ensures.mapM (fun rest w => Launching now u u launches rest w ∧
    (rest.map fun l => (l.task.vertex, l.task.subtask)).Nodup)
    ?_ launches u ⟨hbegin, hpairs⟩).mono ?_ fun _ hw => hw
  · intro l rest w hw
    refine (ensures_launch s.speculation hsettings.symm hplanned hw.2 hw.1).mono
      (fun _ w' hw' => ⟨hw', (List.nodup_cons.1 hw.2).2⟩) fun _ hw' => hw'
  · intro _ w hw
    exact hw.1.underway

/-- Slow attempts were looked for, and the planned launches are carried out. -/
def Speculated (now : Instant) (s t : Scheduler) : Prop :=
  ∃ launches speculation registry, s.Reacts now launches speculation registry ∧
    Underway now (s.reacted speculation registry) t

/-- Looking for slow attempts changes nothing if the end of a block cannot be represented; else it
is `Step.react` and what the launches do, as `Speculated` says. -/
theorem ensures_speculate (hexecuting : s.isExecuting = true)
    (hlive : s.status.isTerminal = false) :
    (speculate now).Ensures s (fun _ => Speculated now s) (· = s) := by
  unfold speculate
  rw [ensures_bind, ensures_get, ensures_bind, ensures_checked]
  refine ⟨?_, fun _ _ => rfl⟩
  intro r hr
  obtain ⟨launches, speculation, registry⟩ := r
  show (modify _ >>= _ : Scheduling (List AttemptId)).Ensures s _ _
  rw [ensures_bind, ensures_modify, ensures_bind]
  exact (ensures_launches hexecuting hlive hr).mono
    (fun _ _ hu => ⟨launches, speculation, registry, hr, hu⟩) fun _ hu => hu

/-- Looking for slow attempts, with the launches, is made of steps of a call. -/
theorem Speculated.steps (h : Speculated now s t) (hexecuting : s.isExecuting = true)
    (hlive : s.status.isTerminal = false) : Steps now s t := by
  obtain ⟨launches, speculation, registry, hreacts, hunder⟩ := h
  exact .head (.react hexecuting hlive hreacts) hunder.steady.steps

/-- With `enabled = false`, looking for slow attempts changes nothing. -/
theorem speculate_eq_of_disabled (h : s.speculation.settings.enabled = false) :
    speculate now s = .ok [] s := by
  rw [eq_ok_iff]
  unfold speculate
  rw [ensures_bind, ensures_get, ensures_bind]
  simp only [Speculation.react, h, Bool.false_eq_true, if_false]
  exact ⟨rfl, rfl⟩

end AdaptiveBatch.Scheduler
