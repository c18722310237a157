import AdaptiveBatch.Proofs.Scheduler.Course

/-! # Attempts are placed where there is room

Many attempts are placed in one call, from counts of attempts that were made before. Still, whenever
the backend is asked to start an attempt, its node is in the view, is not blocked, and has a slot
for it: every line of the ledger that starts an attempt was written by a step that placed it, and
such a step finds the node free. The blocked nodes are settled before the first attempt is placed: a
call changes `s.slow` in its opening and in what it decides then, and only in a tick.

* **`Scheduler.GivesUp`** — only attempts that were given up are added to the ledger;
* **`Scheduler.Asks`** — the state in which a call asks the backend to start an attempt;
* **`Scheduler.SteadySteps.find_line`** — the step that has written a line;
* **`Scheduler.placed_with_room`** — every placement of every history. -/

namespace AdaptiveBatch.Scheduler

open Scheduling ExecutionGraph

variable {s t u : Scheduler} {now time : Instant} {id : AttemptId} {node : NodeId}
  {accepted : Bool} {later earlier : List BackendCall}

/-! ## Lines of the ledger -/

/-- The ledger has at most more lines about attempts that were given up. -/
def GivesUp (s t : Scheduler) : Prop :=
  ∃ ids : List AttemptId, t.backend.calls = ids.map BackendCall.cancel ++ s.backend.calls

/-- The ledger has no more lines than itself. -/
theorem GivesUp.refl (s : Scheduler) : s.GivesUp s := ⟨[], rfl⟩

/-- Only the `backend` matters to the lines of the ledger. -/
theorem GivesUp.of_eq (h : s.GivesUp t) (hbackend : u.backend = t.backend) : s.GivesUp u := by
  obtain ⟨ids, hcalls⟩ := h
  exact ⟨ids, by rw [hbackend, hcalls]⟩

/-- Giving up the attempts `ids` writes lines about attempts that are given up, and no others. -/
theorem GivesUp.cancelAll (h : s.GivesUp t) {ids : List AttemptId}
    (hbackend : u.backend = t.backend.cancelAll ids) : s.GivesUp u := by
  obtain ⟨old, hcalls⟩ := h
  refine ⟨ids.reverse ++ old, ?_⟩
  rw [hbackend, Backend.calls_cancelAll, hcalls, List.map_append, List.map_reverse,
    List.append_assoc]

/-- Lines about attempts that are given up start no attempt: a `.deploy` of the longer ledger is one
of the shorter. -/
theorem GivesUp.line (h : s.GivesUp t)
    (hcalls : t.backend.calls = later ++ .deploy id node time accepted :: earlier) :
    ∃ later', s.backend.calls = later' ++ .deploy id node time accepted :: earlier := by
  obtain ⟨ids, hids⟩ := h
  rw [hids] at hcalls
  clear hids
  induction ids generalizing later with
  | nil => exact ⟨later, hcalls⟩
  | cons other rest ih =>
    cases later with
    | nil => exact BackendCall.noConfusion (List.cons.inj hcalls).1
    | cons call later => exact ih (List.cons.inj hcalls).2

/-- A look writes lines about attempts that are given up, and no others. -/
theorem givesUp_look : s.GivesUp ((look now).final s) :=
  look_keeps (J := s.GivesUp) (GivesUp.refl s) (fun _ _ _ => GivesUp.refl s)
    (fun _ _ _ _ ht => ht.cancelAll rfl) (fun _ _ ht => ht.of_eq rfl)
    fun _ _ ht => ht.cancelAll rfl

/-- What comes before the look of a call writes lines about attempts that are given up, and no
others. -/
theorem Opening.givesUp {c : Call} (h : Opening now s c t) : s.GivesUp t := by
  cases h with
  | finished =>
    unfold won
    split <;> exact (GivesUp.refl s).cancelAll rfl
  | scaled =>
    exact restartAll_keeps (J := s.GivesUp) (GivesUp.refl s)
      (fun _ _ _ _ _ ht => ht.cancelAll rfl) fun _ ht => ht.of_eq rfl
  | nothing | running | progress | failed | resources | tick => exact (GivesUp.refl s).of_eq rfl

/-! ## Placements -/

/-- On the way from `w` to `u`, the backend is asked to start an attempt in the state `v`. No step
on this way changes the view or the blocked nodes, so those of `v` are the ones that are left in
`u`. -/
structure Asks (now : Instant) (w u : Scheduler) (id : AttemptId) (node : NodeId)
    (v : Scheduler) : Prop where
  /-- Steady steps lead to a task, and an attempt is assigned to it. -/
  assigned : ∃ x vertex subtask speculative, SteadySteps now w x ∧
    assign vertex subtask node speculative now x = .ok id v
  /-- The backend is asked, and steady steps lead on. -/
  rest : SteadySteps now ((ask id node now).final v) u
  /-- The view stays as it is. -/
  view_eq : v.view = u.view
  /-- The blocked nodes stay as they are. -/
  slow_eq : v.slow = u.slow

/-- One more steady step to `u` after the backend was asked. -/
theorem Asks.tail {v w : Scheduler} (h : Asks now w t id node v) (hstep : SteadyStep now t u) :
    Asks now w u id node v :=
  ⟨h.assigned, h.rest.tail hstep, h.view_eq.trans hstep.1.view_eq.symm,
    h.slow_eq.trans hstep.2.symm⟩

/-- More steady steps before an attempt is assigned, from `w` to `t`. -/
theorem Asks.after_steps {v w : Scheduler} (hsteps : SteadySteps now w t)
    (h : Asks now t u id node v) : Asks now w u id node v := by
  obtain ⟨x, vertex, subtask, speculative, hx, hassign⟩ := h.assigned
  exact ⟨⟨x, vertex, subtask, speculative, hsteps.trans hx, hassign⟩, h.rest, h.view_eq, h.slow_eq⟩

/-- The attempts of a vertex that hold a slot of a node. -/
def hosted (s : Scheduler) (vertex : VertexId) (node : NodeId) : List Attempt :=
  ((s.graph.get? vertex).elim [] VertexExecution.activeAttempts).filter (·.node = node)

/-- The attempts of a vertex that a node hosts are as many as `vertexNodeCounts` says. -/
theorem length_hosted (s : Scheduler) (vertex : VertexId) (node : NodeId) :
    (s.hosted vertex node).length = (s.graph.vertexNodeCounts vertex).on node := by
  unfold hosted vertexNodeCounts
  rw [NodeCounts.on_ofNodes, List.count, List.countP_map, List.countP_eq_length_filter]
  rfl

/-- An active attempt of the graph is hosted by its node, among the attempts of its vertex. -/
theorem mem_hosted {a : Attempt} (ha : s.graph.attempt? id = some a) (hactive : a.isActive = true) :
    a ∈ s.hosted id.vertex a.node := by
  obtain ⟨t, ht, hget⟩ := attempt?_eq_some_iff.1 ha
  obtain ⟨v, hv, -, htask⟩ := taskOf?_eq_some_iff.1 ht
  unfold hosted
  rw [hv, List.mem_filter]
  refine ⟨List.mem_flatMap.2 ⟨t, List.mem_of_getElem? htask, ?_⟩, decide_eq_true rfl⟩
  exact Task.mem_activeAttempts.2 ⟨List.mem_of_getElem? hget, hactive⟩

/-- The attempt that the backend is asked to start has a slot: its node is in the view, is not
blocked, and hosts no more attempts of the vertex than it has slots, the attempt included. -/
structure Fits (v : Scheduler) (now : Instant) (id : AttemptId) (node : NodeId) : Prop where
  /-- The attempt holds a slot of the node. -/
  included : ∃ a ∈ v.hosted id.vertex node, a.id = id
  /-- The node is in the view. -/
  mem_nodes : node ∈ v.view.nodes
  /-- It is not blocked. -/
  not_blocked : v.slow.isBlocked node now = false
  /-- It hosts no more attempts of the vertex than it has slots. -/
  length_le : (v.hosted id.vertex node).length ≤ v.view.slotsOn node

/-- An attempt that is assigned where there is room `Fits`. -/
theorem fits_assigned {v : VertexExecution} {task : Task} {vertex : VertexId} {subtask : Nat}
    {speculative : Bool} (hv : s.graph.get? vertex = some v) (ht : v.tasks[subtask]? = some task)
    (room : s.HasRoom vertex node now) :
    (s.assigned (v.nextId vertex subtask task) node speculative now).Fits now
      (v.nextId vertex subtask task) node := by
  let a := Attempt.deploying (v.nextId vertex subtask task) node speculative now
  have hnext : s.graph.IsNext a.id := isNext_nextId hv ht
  have hcount := on_vertexNodeCounts_push hnext vertex node
  rw [if_pos ⟨rfl, rfl, rfl⟩] at hcount
  have hself : (s.graph.push a).attempt? a.id = some a := (attempt?_push hnext).trans (if_pos rfl)
  refine ⟨⟨a, mem_hosted hself rfl, rfl⟩, room.mem_nodes, room.not_blocked, ?_⟩
  rw [length_hosted]
  exact Nat.le_trans (Nat.le_of_eq hcount) room.count_lt

/-- A step that writes a line about an attempt to be started has asked for it in a state `v` in
which it `Fits`; any other such line was there before. -/
theorem Step.find_line (h : Step now t u)
    (hcalls : u.backend.calls = later ++ .deploy id node time accepted :: earlier) :
    (∃ later', t.backend.calls = later' ++ .deploy id node time accepted :: earlier) ∨
      time = now ∧ ∃ v, Asks now t u id node v ∧ v.backend.calls = earlier ∧
        v.Fits now id node := by
  cases h with
  | @place v task vertex subtask target speculative executing live vertex_eq task_eq winner_eq few
      room =>
    -- The step writes one line; either it is the one in question, or that one is older.
    cases later with
    | cons call later => exact Or.inl ⟨later, (List.cons.inj hcalls).2⟩
    | nil =>
      obtain ⟨hline, rfl⟩ := List.cons.inj hcalls
      cases hline
      refine Or.inr ⟨rfl, t.assigned _ node speculative now,
        ⟨⟨t, vertex, subtask, speculative, .refl, assign_eq vertex_eq task_eq⟩, ?_, rfl, rfl⟩, rfl,
        ?_⟩
      · rw [final_of_eq_ok (ask_eq vertex_eq task_eq winner_eq)]
      · exact fits_assigned vertex_eq task_eq room
  | look => exact Or.inl (givesUp_look.line hcalls)
  | giveUp e => exact Or.inl (((GivesUp.refl t).cancelAll rfl).line hcalls)
  | start | react | count => exact Or.inl ⟨later, hcalls⟩

/-- Among steady steps, one of them has written the line, in a state `v` in which the attempt
`Fits`. -/
theorem SteadySteps.find_line (h : SteadySteps now t u)
    (hcalls : u.backend.calls = later ++ .deploy id node time accepted :: earlier) :
    (∃ later', t.backend.calls = later' ++ .deploy id node time accepted :: earlier) ∨
      time = now ∧ ∃ v, Asks now t u id node v ∧ v.backend.calls = earlier ∧
        v.Fits now id node := by
  induction h generalizing later with
  | refl => exact Or.inl ⟨later, hcalls⟩
  | tail hsteps hstep ih =>
    -- The last step has written the line, or it was there before.
    rcases hstep.1.find_line hcalls with ⟨later', hold⟩ | ⟨rfl, v, hasks, hv, hfits⟩
    · rcases ih hold with hold | ⟨rfl, v, hasks, hv, hfits⟩
      · exact Or.inl hold
      · exact Or.inr ⟨rfl, v, hasks.tail hstep, hv, hfits⟩
    · exact Or.inr ⟨rfl, v, hasks.after_steps hsteps, hv, hfits⟩

/-- What a call `Decides` after its opening starts no attempt. -/
theorem Decides.givesUp {c : Call} (h : Decides now c s t) : s.GivesUp t := by
  cases h with
  | nothing => exact .refl s
  | look => exact givesUp_look
  | react => exact (GivesUp.refl s).of_eq rfl

/-- A call writes new lines after it has opened and decided, each in a state `v` in which the
attempt `Fits`. -/
theorem after_find_line (hs : s.Sound) {c : Call}
    (hcalls : (s.after now c).backend.calls = later ++ .deploy id node time accepted :: earlier) :
    (∃ later', s.backend.calls = later' ++ .deploy id node time accepted :: earlier) ∨
      time = now ∧ ∃ t w v, Opening now s c t ∧ Decides now c t w ∧
        Asks now w (s.after now c) id node v ∧ v.backend.calls = earlier ∧ v.Fits now id node := by
  obtain ⟨t, w, hopen, hdecides, hrest⟩ := after_course hs now c
  rcases hrest.steady.find_line hcalls with ⟨later', hold⟩ | ⟨rfl, v, hasks, hv, hfits⟩
  · obtain ⟨later', hold⟩ := hdecides.givesUp.line hold
    exact Or.inl (hopen.givesUp.line hold)
  · exact Or.inr ⟨rfl, t, w, v, hopen, hdecides, hasks, hv, hfits⟩

/-- **Attempts are placed where there is room.** In any history of a submitted job, whenever the
backend is asked to start an attempt — a line of the ledger says so — this happens in a call at the
time of the line, after the call has opened and decided whether nodes are blocked, and in a state
`v` in which the attempt `Fits`: its node is in `v.view`, is not blocked in `v.slow`, and hosts no
more attempts of the vertex than it has slots, the attempt included. The view and the blocked nodes
of `v` are those that the call leaves behind, so in them the node is not blocked either. -/
theorem placed_with_room {config : Config} {job : JobGraph} {accepts : Nat → Bool} {start : Instant}
    (h : submit config job { accepts } start = .ok s) (history : History)
    (hcalls : (s.run history).backend.calls = later ++ .deploy id node time accepted :: earlier) :
    ∃ before c rest t w v, history = before ++ (time, c) :: rest ∧
      Opening time (s.run before) c t ∧ Decides time c t w ∧
        Asks time w ((s.run before).after time c) id node v ∧ v.backend.calls = earlier ∧
          v.Fits time id node ∧
            ((s.run before).after time c).slow.isBlocked node time = false := by
  induction history using List.reverseRecOn generalizing later with
  | nil =>
    have hempty : s.backend.calls = [] := by rw [backend_of_submit h]
    rw [run, hempty] at hcalls
    simp at hcalls
  | append_singleton history entry ih =>
    obtain ⟨now, c⟩ := entry
    rw [run_append] at hcalls
    rcases after_find_line ((Sound.of_submit h).run history) hcalls with
      ⟨later', hold⟩ | ⟨rfl, t, w, v, hopen, hdecides, hasks, hv, hfits⟩
    · obtain ⟨before, c', rest, t, w, v, hsplit, hfound⟩ := ih hold
      exact ⟨before, c', rest ++ [(now, c)], t, w, v, by rw [hsplit]; simp, hfound⟩
    · exact ⟨history, c, [], t, w, v, rfl, hopen, hdecides, hasks, hv, hfits,
        hasks.slow_eq ▸ hfits.not_blocked⟩

/-- The node of the straggler still has a free slot, but is blocked in the same tick, so the further
attempt is placed on `"spare"`. -/
theorem placed_with_room_sample : ∃ s earlier,
    submit Sample.watchful Sample.twins .willing .origin = .ok s ∧
      (s.run Sample.straggling).backend.calls =
        [] ++ .deploy (Sample.twin 1 1) "spare" Sample.latest true :: earlier ∧
      ((s.run Sample.halfway).after Sample.latest .tick).slow.isBlocked "node" Sample.latest = true ∧
      ∃ before c rest t w v, Sample.straggling = before ++ (Sample.latest, c) :: rest ∧
        Opening Sample.latest (s.run before) c t ∧ Decides Sample.latest c t w ∧
          Asks Sample.latest w ((s.run before).after Sample.latest c) (Sample.twin 1 1) "spare" v ∧
            v.backend.calls = earlier ∧ v.Fits Sample.latest (Sample.twin 1 1) "spare" ∧
              ((s.run before).after Sample.latest c).slow.isBlocked "spare" Sample.latest =
                false := by
  obtain ⟨s, hs, heval⟩ := Sample.exists_watchful
    (P := fun s => decide ((s.run Sample.straggling).backend.calls.head? =
        some (.deploy (Sample.twin 1 1) "spare" Sample.latest true)) &&
      ((s.run Sample.halfway).after Sample.latest .tick).slow.isBlocked "node" Sample.latest)
    (by decide +kernel)
  obtain ⟨hhead, hblocked⟩ := Bool.and_eq_true_iff.1 heval
  obtain ⟨earlier, hcalls⟩ := List.head?_eq_some_iff.1 (of_decide_eq_true hhead)
  have hline : (s.run Sample.straggling).backend.calls =
      [] ++ .deploy (Sample.twin 1 1) "spare" Sample.latest true :: earlier := hcalls
  exact ⟨s, earlier, hs, hline, hblocked, placed_with_room hs Sample.straggling hline⟩

end AdaptiveBatch.Scheduler
