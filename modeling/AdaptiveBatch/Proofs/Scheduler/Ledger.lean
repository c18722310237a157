import AdaptiveBatch.Proofs.Scheduler.Calls
import AdaptiveBatch.Proofs.Scheduler.Submission

/-! # The ledger of the backend

The calls to the backend are a ledger of the attempts: one line when an attempt is handed to its
node, and one when it is given up. The ledger and the execution graph are written by different parts
of the scheduler, and they agree: the attempts that the backend has accepted, that have not reported
their end and that were not given up are those that hold a slot. So an attempt is neither lost nor
given up twice, whatever ends it.

* **`deployedIds`**, **`acceptedIds`**, **`canceledIds`** — what the lines say;
* **`Orderly`** — every attempt is handed out once, and given up at most once, after it was
  accepted;
* **`Scheduler.Ledger`** — the invariant; **`Scheduler.Ledger.release`** — slots become free together
  with their lines; **`Scheduler.Ledger.placed`** — one more attempt;
* **`Scheduler.backend_ledger`** — the ledger after any history. -/

namespace AdaptiveBatch

/-! ## Lines -/

/-- The attempt that the backend is asked to start. -/
def BackendCall.deployed? : BackendCall → Option AttemptId
  | .deploy id _ _ _ => some id
  | .cancel _ => none

/-- The attempt that the backend accepts to start. -/
def BackendCall.accepted? : BackendCall → Option AttemptId
  | .deploy id _ _ true => some id
  | .deploy _ _ _ false => none
  | .cancel _ => none

/-- The attempt that the backend is asked to stop. -/
def BackendCall.canceled? : BackendCall → Option AttemptId
  | .deploy _ _ _ _ => none
  | .cancel id => some id

/-- The attempts that the backend was asked to start, the latest first. -/
def deployedIds (calls : List BackendCall) : List AttemptId := calls.filterMap BackendCall.deployed?

/-- The attempts that the backend has accepted to start, the latest first. -/
def acceptedIds (calls : List BackendCall) : List AttemptId := calls.filterMap BackendCall.accepted?

/-- The attempts that the backend was asked to stop, the latest first. -/
def canceledIds (calls : List BackendCall) : List AttemptId := calls.filterMap BackendCall.canceled?

/-- No attempt is handed out twice; one that is given up was accepted and not given up before. -/
def Orderly : List BackendCall → Prop
  | [] => True
  | .deploy id _ _ _ :: earlier => id ∉ deployedIds earlier ∧ Orderly earlier
  | .cancel id :: earlier =>
    (id ∈ acceptedIds earlier ∧ id ∉ canceledIds earlier) ∧ Orderly earlier

variable {calls : List BackendCall} {id : AttemptId}

/-- A line `.deploy id` adds `id` to those that the backend was asked to start. -/
@[simp] theorem deployedIds_deploy {node : NodeId} {now : Instant} {accepted : Bool} :
    deployedIds (.deploy id node now accepted :: calls) = id :: deployedIds calls :=
  rfl

/-- A line `.deploy id` adds `id` to those that the backend has accepted if it says so. -/
@[simp] theorem acceptedIds_deploy {node : NodeId} {now : Instant} {accepted : Bool} :
    acceptedIds (.deploy id node now accepted :: calls) =
      if accepted then id :: acceptedIds calls else acceptedIds calls := by
  cases accepted <;> rfl

/-- A line `.deploy id` adds nothing to those that are given up. -/
@[simp] theorem canceledIds_deploy {node : NodeId} {now : Instant} {accepted : Bool} :
    canceledIds (.deploy id node now accepted :: calls) = canceledIds calls :=
  rfl

/-- Only attempts that the backend was asked to start are accepted. -/
theorem acceptedIds_subset (h : id ∈ acceptedIds calls) : id ∈ deployedIds calls := by
  obtain ⟨call, hcall, haccepted⟩ := List.mem_filterMap.1 h
  refine List.mem_filterMap.2 ⟨call, hcall, ?_⟩
  cases call with
  | deploy other node now accepted => cases accepted <;> simp_all [BackendCall.accepted?,
      BackendCall.deployed?]
  | cancel other => cases haccepted

/-- In an orderly ledger no attempt is handed out twice. -/
theorem Orderly.nodup_deployedIds (h : Orderly calls) : (deployedIds calls).Nodup := by
  induction calls with
  | nil => exact List.nodup_nil
  | cons call earlier ih =>
    cases call with
    | deploy id node now accepted => exact List.nodup_cons.2 ⟨h.1, ih h.2⟩
    | cancel id => exact ih h.2

/-- In an orderly ledger no attempt is given up twice. -/
theorem Orderly.nodup_canceledIds (h : Orderly calls) : (canceledIds calls).Nodup := by
  induction calls with
  | nil => exact List.nodup_nil
  | cons call earlier ih =>
    cases call with
    | deploy id node now accepted => exact ih h.2
    | cancel id => exact List.nodup_cons.2 ⟨h.1.2, ih h.2⟩

/-- The lines that an orderly ledger had `earlier` are orderly. -/
theorem Orderly.of_append {later : List BackendCall} {earlier : List BackendCall}
    (h : Orderly (later ++ earlier)) : Orderly earlier := by
  induction later with
  | nil => exact h
  | cons call later ih =>
    cases call with
    | deploy id node now accepted => exact ih h.2
    | cancel id => exact ih h.2

/-- In an orderly ledger only accepted attempts are given up. -/
theorem Orderly.canceled_accepted (h : Orderly calls) (hid : id ∈ canceledIds calls) :
    id ∈ acceptedIds calls := by
  induction calls with
  | nil => cases hid
  | cons call earlier ih =>
    cases call with
    | deploy other node now accepted =>
      have hold := ih h.2 hid
      rw [acceptedIds_deploy]
      split
      · exact List.mem_cons_of_mem _ hold
      · exact hold
    | cancel other =>
      rcases List.mem_cons.1 hid with rfl | hid
      · exact h.1.1
      · exact ih h.2 hid

/-! ## Giving up several attempts -/

namespace Backend

variable {b : Backend} {ids : List AttemptId}

/-- Giving up attempts asks the backend to start none. -/
@[simp] theorem deployedIds_cancelAll : deployedIds (b.cancelAll ids).calls = deployedIds b.calls := by
  rw [calls_cancelAll, deployedIds, List.filterMap_append]
  simp [deployedIds, BackendCall.deployed?, Function.comp_def]

/-- Giving up attempts gets none accepted. -/
@[simp] theorem acceptedIds_cancelAll : acceptedIds (b.cancelAll ids).calls = acceptedIds b.calls := by
  rw [calls_cancelAll, acceptedIds, List.filterMap_append]
  simp [acceptedIds, BackendCall.accepted?, Function.comp_def]

/-- Giving up the attempts `ids` adds them to those that are given up. -/
theorem mem_canceledIds_cancelAll :
    id ∈ canceledIds (b.cancelAll ids).calls ↔ id ∈ ids ∨ id ∈ canceledIds b.calls := by
  rw [calls_cancelAll, canceledIds, List.filterMap_append]
  simp [canceledIds, BackendCall.canceled?, Function.comp_def]

/-- Different attempts `ids` that were accepted and not given up can be given up, and the ledger
stays orderly. -/
theorem orderly_cancelAll (h : Orderly b.calls) (hnodup : ids.Nodup)
    (hids : ∀ id ∈ ids, id ∈ acceptedIds b.calls ∧ id ∉ canceledIds b.calls) :
    Orderly (b.cancelAll ids).calls := by
  induction ids using List.reverseRecOn with
  | nil => exact h
  | append_singleton rest id ih =>
    -- The last attempt is given up last, so its line stands on top.
    have hcalls : (b.cancelAll (rest ++ [id])).calls = .cancel id :: (b.cancelAll rest).calls := by
      rw [calls_cancelAll, calls_cancelAll]
      simp
    have hid : id ∉ rest := by
      intro hmem
      exact (List.nodup_append.1 hnodup).2.2 id hmem id List.mem_cons_self rfl
    rw [hcalls]
    refine ⟨⟨?_, ?_⟩, ih (List.nodup_append.1 hnodup).1 fun other hother =>
      hids other (List.mem_append_left _ hother)⟩
    · rw [acceptedIds_cancelAll]
      exact (hids id (List.mem_append_right _ List.mem_cons_self)).1
    · intro hmem
      rcases mem_canceledIds_cancelAll.1 hmem with hmem | hmem
      · exact hid hmem
      · exact (hids id (List.mem_append_right _ List.mem_cons_self)).2 hmem

end Backend

namespace Scheduler

open ExecutionGraph

variable {s t : Scheduler} {now : Instant} {ended : List AttemptId}

/-! ## The invariant -/

/-- The ledger is orderly and agrees with the graph, for the attempts that have reported their
end. -/
structure Ledger (s : Scheduler) (ended : List AttemptId) : Prop where
  /-- Every attempt is handed out once, and given up at most once. -/
  orderly : Orderly s.backend.calls
  /-- The attempts that hold a slot are the accepted ones that were neither given up nor have
  ended. -/
  active_iff : ∀ id, s.graph.IsActive id ↔ id ∈ acceptedIds s.backend.calls ∧
    id ∉ canceledIds s.backend.calls ∧ id ∉ ended
  /-- An attempt that has ended was accepted and not given up. -/
  ended_accepted : ∀ id ∈ ended, id ∈ acceptedIds s.backend.calls ∧
    id ∉ canceledIds s.backend.calls
  /-- An identity that was handed out is not given again. -/
  issued : ∀ id ∈ deployedIds s.backend.calls, s.graph.Issued id

/-- Only the `graph` and the `backend` matter to the agreement. -/
theorem Ledger.of_eq (h : s.Ledger ended) (hgraph : t.graph = s.graph)
    (hbackend : t.backend = s.backend) : t.Ledger ended := by
  obtain ⟨horderly, hactive, hended, hissued⟩ := h
  exact ⟨hbackend ▸ horderly, hbackend ▸ hgraph ▸ hactive, hbackend ▸ hended,
    hbackend ▸ hgraph ▸ hissued⟩

/-- Slots become free: some attempts, `canceled`, are given up, others, `gone`, have ended. -/
theorem Ledger.release (h : s.Ledger ended) (canceled gone : List AttemptId)
    (hbackend : t.backend = s.backend.cancelAll canceled) (hnodup : canceled.Nodup)
    (hcanceled : ∀ id ∈ canceled, s.graph.IsActive id)
    (hgone : ∀ id ∈ gone, s.graph.IsActive id ∧ id ∉ canceled)
    (hactive : ∀ id, t.graph.IsActive id ↔ s.graph.IsActive id ∧ id ∉ canceled ∧ id ∉ gone)
    (hissued : ∀ id, s.graph.Issued id → t.graph.Issued id) : t.Ledger (ended ++ gone) := by
  refine ⟨?_, ?_, ?_, ?_⟩
  · -- An attempt that holds a slot was accepted and not given up before.
    rw [hbackend]
    apply Backend.orderly_cancelAll h.orderly hnodup
    intro id hid
    obtain ⟨haccepted, hfresh, -⟩ := (h.active_iff id).1 (hcanceled id hid)
    exact ⟨haccepted, hfresh⟩
  · intro id
    rw [hactive, h.active_iff, hbackend, Backend.acceptedIds_cancelAll,
      Backend.mem_canceledIds_cancelAll, List.mem_append]
    tauto
  · intro id hid
    rw [hbackend, Backend.acceptedIds_cancelAll, Backend.mem_canceledIds_cancelAll]
    rcases List.mem_append.1 hid with hold | hnew
    · -- An attempt that had ended before held no slot, so it is not among those given up now.
      obtain ⟨haccepted, hfresh⟩ := h.ended_accepted id hold
      refine ⟨haccepted, ?_⟩
      intro hmem
      rcases hmem with hmem | hmem
      · exact ((h.active_iff id).1 (hcanceled id hmem)).2.2 hold
      · exact hfresh hmem
    · obtain ⟨hlive, hkept⟩ := hgone id hnew
      obtain ⟨haccepted, hfresh, -⟩ := (h.active_iff id).1 hlive
      exact ⟨haccepted, fun hmem => hmem.elim hkept hfresh⟩
  · intro id hid
    rw [hbackend, Backend.deployedIds_cancelAll] at hid
    exact hissued id (h.issued id hid)

/-- Slots become free because the attempts `canceled` are given up, and none has ended. -/
theorem Ledger.cancel (h : s.Ledger ended) (canceled : List AttemptId)
    (hbackend : t.backend = s.backend.cancelAll canceled) (hnodup : canceled.Nodup)
    (hcanceled : ∀ id ∈ canceled, s.graph.IsActive id)
    (hactive : ∀ id, t.graph.IsActive id ↔ s.graph.IsActive id ∧ id ∉ canceled)
    (hissued : ∀ id, s.graph.Issued id → t.graph.Issued id) : t.Ledger ended := by
  have hrelease := h.release canceled [] hbackend hnodup hcanceled (List.forall_mem_nil _)
    (fun id => by rw [hactive]; simp) hissued
  rw [List.append_nil] at hrelease
  exact hrelease

/-- A change of the graph that neither takes nor frees a slot keeps the ledger in agreement. -/
theorem Ledger.advance (h : s.Ledger ended) (hbackend : t.backend = s.backend)
    (hactive : ∀ id, t.graph.IsActive id ↔ s.graph.IsActive id)
    (hissued : ∀ id, s.graph.Issued id → t.graph.Issued id) : t.Ledger ended :=
  h.cancel [] hbackend List.nodup_nil (List.forall_mem_nil _)
    (fun id => by rw [hactive]; simp) hissued

/-- One more attempt, that of `nextId`, is handed out; its identity is new. -/
theorem Ledger.placed {v : VertexExecution} {task : Task} {vertex : VertexId} {subtask : Nat}
    {node : NodeId} {speculative : Bool} (h : s.Ledger ended)
    (hv : s.graph.get? vertex = some v) (ht : v.tasks[subtask]? = some task) :
    (s.placed (v.nextId vertex subtask task) node speculative now).Ledger ended := by
  have hnext := isNext_nextId hv ht
  have hnew : v.nextId vertex subtask task ∉ deployedIds s.backend.calls := fun hmem =>
    hnext.not_issued (h.issued _ hmem)
  have hcalls : (s.placed (v.nextId vertex subtask task) node speculative now).backend.calls =
      .deploy (v.nextId vertex subtask task) node now
        (s.backend.deploy (v.nextId vertex subtask task) node now).1 :: s.backend.calls := rfl
  have hactive : ∀ id,
      (s.placed (v.nextId vertex subtask task) node speculative now).graph.IsActive id ↔
        s.graph.IsActive id ∨ id = v.nextId vertex subtask task ∧
          (s.backend.deploy (v.nextId vertex subtask task) node now).1 = true := by
    intro id
    unfold Scheduler.placed
    cases (s.backend.deploy (v.nextId vertex subtask task) node now).1 with
    | true => exact isActive_push hnext
    | false => exact isActive_push hnext
  have hissued : ∀ id, s.graph.Issued id ∨ id = v.nextId vertex subtask task →
      (s.placed (v.nextId vertex subtask task) node speculative now).graph.Issued id := by
    rintro id (hold | rfl)
    · exact hold.push
    · unfold Scheduler.placed
      cases (s.backend.deploy (v.nextId vertex subtask task) node now).1 with
      | true => exact IsNext.issued_push hnext
      | false => exact IsNext.issued_push hnext
  refine ⟨?_, ?_, ?_, ?_⟩
  · rw [hcalls]
    exact ⟨hnew, h.orderly⟩
  · intro id
    rw [hactive, h.active_iff, hcalls, acceptedIds_deploy, canceledIds_deploy]
    -- No line and no report can be about an identity that is given for the first time.
    have hfresh : v.nextId vertex subtask task ∉ canceledIds s.backend.calls ∧
        v.nextId vertex subtask task ∉ ended := by
      refine ⟨fun hmem => hnew (acceptedIds_subset (h.orderly.canceled_accepted hmem)), ?_⟩
      intro hmem
      exact hnew (acceptedIds_subset (h.ended_accepted _ hmem).1)
    split
    · next haccepted =>
      rw [List.mem_cons]
      constructor
      · rintro (hold | ⟨rfl, -⟩)
        · exact ⟨Or.inr hold.1, hold.2⟩
        · exact ⟨Or.inl rfl, hfresh⟩
      · rintro ⟨rfl | hold, hrest⟩
        · exact Or.inr ⟨rfl, haccepted⟩
        · exact Or.inl ⟨hold, hrest⟩
    · next hrefused => simp [hrefused]
  · intro id hid
    obtain ⟨haccepted, hkept⟩ := h.ended_accepted id hid
    rw [hcalls, acceptedIds_deploy, canceledIds_deploy]
    refine ⟨?_, hkept⟩
    split
    · exact List.mem_cons_of_mem _ haccepted
    · exact haccepted
  · intro id hid
    rw [hcalls, deployedIds_deploy] at hid
    rcases List.mem_cons.1 hid with rfl | hold
    · exact hissued _ (Or.inr rfl)
    · exact hissued _ (Or.inl (h.issued id hold))

/-! ## Steps -/

/-- A new generation gives up the active attempts of the old one, and keeps the ledger in
agreement. -/
theorem Ledger.restarted (h : s.Ledger ended) (hs : s.Sound) (vertex : VertexId)
    (parallelism : Nat) : (s.restarted vertex parallelism now).Ledger ended := by
  refine h.cancel (s.graph.activeIdsOf vertex) rfl (nodup_activeIdsOf hs.wellFormed)
    (fun id hid => ((mem_activeIdsOf hs.wellFormed).1 hid).2) ?_
    fun id hid => hid.regenerate parallelism
  intro id
  show (s.graph.regenerate vertex parallelism now).IsActive id ↔ _
  rw [isActive_regenerate, mem_activeIdsOf hs.wellFormed]
  tauto

/-- A vertex that starts for the first time has no attempts to give up. -/
theorem Ledger.started {v : JobVertex} {inputs : List InputStatistics} {id : VertexId}
    (h : s.Ledger ended) (hnew : s.graph.get? id = none) :
    (s.started v inputs id now).Ledger ended := by
  refine h.advance rfl ?_ fun other hother => hother.regenerate _
  intro other
  show (s.graph.regenerate id _ now).IsActive other ↔ _
  rw [isActive_regenerate]
  -- A vertex that has not started has no active attempts.
  apply and_iff_left_of_imp
  intro hactive hvertex
  obtain ⟨w, hw, -⟩ := hactive.issued
  rw [hvertex, hnew] at hw
  cases hw

/-- A job that gives up by `s.fail` gives up every active attempt. -/
theorem Ledger.fail (h : s.Ledger ended) (hs : s.Sound) (e : SchedulerError) :
    (s.fail e now).Ledger ended :=
  h.cancel s.graph.activeIds rfl (nodup_activeIds hs.wellFormed)
    (fun _ hid => (mem_activeIds hs.wellFormed).1 hid) (fun _ => isActive_cancelEach hs.settled _)
    fun _ hid => hid.cancelEach _

/-- A look keeps the ledger in agreement. -/
theorem Ledger.look (h : s.Ledger ended) (hs : s.Sound) :
    ((Scheduler.look now).final s).Ledger ended :=
  (look_keeps (J := fun t => t.Sound ∧ t.Ledger ended) ⟨hs, h⟩
    (fun _ _ _ => ⟨hs.of_eq rfl rfl, h.of_eq rfl rfl⟩)
    (fun _ _ _ hpos ht => ⟨ht.1.restarted hpos, ht.2.restarted ht.1 _ _⟩)
    (fun _ _ ht => ⟨ht.1.of_eq rfl rfl, ht.2.of_eq rfl rfl⟩)
    fun _ e ht => ⟨ht.1.fail e, ht.2.fail ht.1 e⟩).2

/-- A step of a call keeps the ledger in agreement. -/
theorem Step.ledger (hstep : Step now s t) (hs : s.Sound) (h : s.Ledger ended) :
    t.Ledger ended := by
  cases hstep with
  | place executing live vertex_eq task_eq winner_eq few room => exact h.placed vertex_eq task_eq
  | start executing live mem_order new ready vertex_eq inputs_eq pos => exact h.started new
  | look => exact h.look hs
  | giveUp e => exact h.fail hs e
  | react | count => exact h.of_eq rfl rfl

/-! ## Openings -/

/-- A win ends the attempt `id` and gives up its rivals. -/
theorem Ledger.won {id : AttemptId} {inputBytes outputBytes : Option Nat} (h : s.Ledger ended)
    (hs : s.Sound) (hid : s.graph.Awaits id) :
    (s.won id inputBytes outputBytes now).Ledger (ended ++ [id]) := by
  have hwin : (s.winning id inputBytes outputBytes now).Ledger (ended ++ [id]) := by
    refine h.release (s.graph.rivalIds id) [id] rfl (nodup_rivalIds hs.wellFormed)
      (fun other hother => ((mem_rivalIds hs.wellFormed).1 hother).1) ?_
      ?_ fun other hother => hother.win
    · intro other hother
      obtain rfl := List.mem_singleton.1 hother
      exact ⟨hid.isActive, fun hmem => ((mem_rivalIds hs.wellFormed).1 hmem).2.1 rfl⟩
    · intro other
      rw [List.mem_singleton]
      exact (isActive_win hs.wellFormed hid).trans (by tauto)
  unfold Scheduler.won
  split
  · exact hwin.of_eq rfl rfl
  · exact hwin

/-- A failure ends the attempt `id`. -/
theorem Ledger.failed {id : AttemptId} (h : s.Ledger ended) (hid : s.graph.Awaits id) :
    (s.advanced id (·.fail now)).Ledger (ended ++ [id]) := by
  refine h.release [] [id] rfl List.nodup_nil (List.forall_mem_nil _)
    ?_ ?_ fun other hother => hother.modifyAttempt
  · intro other hother
    obtain rfl := List.mem_singleton.1 hother
    exact ⟨hid.isActive, List.not_mem_nil⟩
  · intro other
    rw [List.mem_singleton]
    exact (isActive_of_ends hid fun a => Attempt.isActive_fail a now).trans (by simp)

/-- What comes before the look of a call keeps the ledger in agreement, with the end that it
applies, `c.ended?`. -/
theorem Opening.ledger {c : Call} (hopen : Opening now s c t) (hs : s.Sound)
    (h : s.Ledger ended) : t.Ledger (ended ++ (c.ended? s.graph now).toList) := by
  have hquiet (hended : c.ended? s.graph now = none) (ht : t.Ledger ended) :
      t.Ledger (ended ++ (c.ended? s.graph now).toList) := by
    rw [hended, Option.toList_none, List.append_nil]
    exact ht
  cases hopen with
  | nothing ended_eq => exact hquiet ended_eq h
  | running awaits =>
    exact hquiet rfl (h.advance rfl (fun _ => isActive_of_runs awaits fun a _ =>
      Attempt.isActive_run a now) fun _ hid => hid.modifyAttempt)
  | progress awaits =>
    exact hquiet rfl (h.advance rfl (fun _ => isActive_of_runs awaits fun _ hactive => hactive)
      fun _ hid => hid.modifyAttempt)
  | finished awaits => rw [ended?_finished awaits]; exact h.won hs awaits
  | failed awaits => rw [ended?_failed awaits]; exact h.failed awaits
  | resources => exact hquiet rfl (h.of_eq rfl rfl)
  | scaled =>
    refine hquiet rfl (restartAll_keeps (J := fun t => t.Sound ∧ t.Ledger ended) ⟨hs, h⟩
      (fun _ _ _ hpos _ ht => ⟨ht.1.restarted hpos, ht.2.restarted ht.1 _ _⟩)
      fun _ ht => ⟨ht.1.of_eq rfl rfl, ht.2.of_eq rfl rfl⟩).2
  | tick => exact hquiet rfl (h.of_eq rfl rfl)

/-! ## Histories -/

/-- Every call keeps the ledger in agreement, with the end that it applies, `c.ended?`. -/
theorem Ledger.after (h : s.Ledger ended) (hs : s.Sound) (now : Instant) (c : Call) :
    (s.after now c).Ledger (ended ++ (c.ended? s.graph now).toList) := by
  obtain ⟨t, hopen, hsteps⟩ := after_steps hs now c
  have hkeep := hsteps.keeps
    (J := fun u => u.Sound ∧ u.Ledger (ended ++ (c.ended? s.graph now).toList))
    (fun _ _ hstep hu => ⟨hstep.sound hu.1, hstep.ledger hu.1 hu.2⟩)
    ⟨hopen.sound hs, hopen.ledger hs h⟩
  exact hkeep.2

/-- The ledger of a new job is empty, and no attempt has ended. -/
theorem Ledger.of_submit {config : Config} {job : JobGraph} {accepts : Nat → Bool}
    (h : submit config job { accepts } now = .ok s) : s.Ledger [] := by
  have hgraph := graph_of_submit h
  have hcalls : s.backend.calls = [] := by rw [backend_of_submit h]
  refine ⟨?_, ?_, List.forall_mem_nil _, ?_⟩
  · rw [hcalls]
    trivial
  · intro id
    rw [hcalls, hgraph]
    apply iff_of_false
    · rintro ⟨a, ha, -⟩
      simp [attempt?, taskOf?] at ha
    · rintro ⟨haccepted, -⟩
      cases haccepted
  · intro id hid
    rw [hcalls] at hid
    cases hid

/-- Every history keeps the ledger in agreement, with the ends that `s.ended history` lists. -/
theorem Ledger.run (h : s.Ledger []) (hs : s.Sound) (history : History) :
    (s.run history).Ledger (s.ended history) := by
  have hboth := run_induction_ended (J := fun t ended => t.Sound ∧ t.Ledger ended) ⟨hs, h⟩
    (fun t ended now c ht => ⟨ht.1.after now c, ht.2.after ht.1 now c⟩) history
  exact hboth.2

/-- After any history of a submitted job, whatever the backend answers: no attempt was handed out
twice; the attempts that hold a slot (`activeIds`) are exactly those that were accepted, whose end
was not reported, and that were not given up; none was given up twice, and none before it was
accepted. -/
theorem backend_ledger {config : Config} {job : JobGraph} {accepts : Nat → Bool} {start : Instant}
    (h : submit config job { accepts } start = .ok s) (history : History) :
    (deployedIds (s.run history).backend.calls).Nodup ∧
      (∀ id, id ∈ (s.run history).activeIds ↔ id ∈ acceptedIds (s.run history).backend.calls ∧
        id ∉ s.ended history ∧ id ∉ canceledIds (s.run history).backend.calls) ∧
      (canceledIds (s.run history).backend.calls).Nodup ∧
      ∀ later id earlier, (s.run history).backend.calls = later ++ .cancel id :: earlier →
        id ∈ acceptedIds earlier := by
  have hsound : s.Sound := .of_submit h
  have hledger := (Ledger.of_submit h).run hsound history
  have hwf := (hsound.run history).wellFormed
  refine ⟨hledger.orderly.nodup_deployedIds, ?_, hledger.orderly.nodup_canceledIds, ?_⟩
  · intro id
    have hactive : id ∈ (s.run history).activeIds ↔ (s.run history).graph.IsActive id :=
      mem_activeIds hwf
    rw [hactive, hledger.active_iff]
    tauto
  · intro later id earlier hsplit
    have horderly := hledger.orderly
    rw [hsplit] at horderly
    exact horderly.of_append.1.1

/-- In the run `Sample.growth ++ Sample.restart` an attempt is given up at the restart, one is
refused, one has ended, and the last one holds a slot. -/
theorem backend_ledger_sample : ∃ s,
    submit Sample.config Sample.job { accepts := Sample.accepts } .origin = .ok s ∧
      s.ended (Sample.growth ++ Sample.restart) = [Sample.secondTask] ∧
      (canceledIds (s.run (Sample.growth ++ Sample.restart)).backend.calls).length = 1 ∧
      (deployedIds (s.run (Sample.growth ++ Sample.restart)).backend.calls).Nodup ∧
      Sample.secondTask ∉ (s.run (Sample.growth ++ Sample.restart)).activeIds := by
  obtain ⟨s, hs, heval⟩ := Sample.exists_scheduler
    (P := fun s => decide (s.ended (Sample.growth ++ Sample.restart) = [Sample.secondTask] ∧
      (canceledIds (s.run (Sample.growth ++ Sample.restart)).backend.calls).length = 1))
    (by decide +kernel)
  obtain ⟨hended, hcanceled⟩ := of_decide_eq_true heval
  obtain ⟨hnodup, hactive, -, -⟩ := backend_ledger hs (Sample.growth ++ Sample.restart)
  refine ⟨s, hs, hended, hcanceled, hnodup, fun hmem => ((hactive _).1 hmem).2.1 ?_⟩
  rw [hended]
  exact List.mem_singleton_self _

end Scheduler

end AdaptiveBatch
