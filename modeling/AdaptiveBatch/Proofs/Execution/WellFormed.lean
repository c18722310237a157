import AdaptiveBatch.Proofs.Execution.Lookup
import Mathlib.Data.List.Nodup

/-! # Well-formed execution graphs

In a well-formed graph the place of an attempt can be read off its identity: its vertex, its task,
the generation and its number. So different attempts have different identities. A task is won by
exactly the attempt that finished.

* **`Task.WellFormed`**, **`VertexExecution.WellFormed`**, **`ExecutionGraph.WellFormed`** — kept by
  every operation on the graph, in whatever order they come;
* **`ExecutionGraph.Settled`** — no won task holds a slot; kept as well, as long as no attempt is
  added to a won task;
* **`ExecutionGraph.nodup_activeIds`** — the attempts that hold a slot have different identities. -/

namespace AdaptiveBatch

/-! ## Tasks -/

/-- The task with an index, in a generation of a vertex. -/
structure Task.WellFormed (vertex : VertexId) (generation k : Nat) (t : Task) : Prop where
  /-- The task knows its index. -/
  subtask_eq : t.subtask = k
  /-- The identity of an attempt names its place. -/
  id_eq : ∀ (n : Nat) (a : Attempt), t.attempts[n]? = some a →
    a.id = { vertex, subtask := k, generation, number := n }
  /-- The winner is the attempt that finished. -/
  winner_iff : ∀ n : Nat, t.winner = some n ↔
    ∃ a : Attempt, t.attempts[n]? = some a ∧ a.status = .finished

/-- A won task holds no slot. -/
def Task.Settled (t : Task) : Prop := t.isFinished = true → t.activeAttempts = []

namespace Task

variable {vertex : VertexId} {generation k n : Nat} {t : Task} {a : Attempt} {now : Instant}

/-- A task that is not won is `Settled` whatever slots it holds. -/
theorem settled_of_winner_eq_none (h : t.winner = none) : t.Settled := by
  intro hfinished
  rw [isFinished, h] at hfinished
  cases hfinished

/-- The identity of an attempt has its position in the task as its `number`. -/
theorem WellFormed.number_eq (h : t.WellFormed vertex generation k) (ha : t.attempts[n]? = some a) :
    a.id.number = n := by
  rw [h.id_eq n a ha]

/-- No attempt of a task that is not won has `finished`. -/
theorem WellFormed.no_finished (h : t.WellFormed vertex generation k) (hw : t.winner = none)
    (ha : t.attempts[n]? = some a) : a.status ≠ .finished := by
  intro hs
  have hwinner : t.winner = some n := (h.winner_iff n).2 ⟨a, ha, hs⟩
  rw [hw] at hwinner
  cases hwinner

/-- Two attempts of a task have different identities: their `number`s differ. -/
theorem WellFormed.nodup_ids (h : t.WellFormed vertex generation k) :
    (t.attempts.map (·.id)).Nodup := by
  rw [List.nodup_iff_pairwise_ne, List.pairwise_iff_getElem]
  intro i j hi hj hij heq
  rw [List.length_map] at hi hj
  rw [List.getElem_map, List.getElem_map] at heq
  have hnumber := congrArg AttemptId.number heq
  rw [h.number_eq (List.getElem?_eq_getElem hi),
    h.number_eq (List.getElem?_eq_getElem hj)] at hnumber
  omega

/-- Two active attempts of a task have different identities. -/
theorem WellFormed.nodup_activeIds (h : t.WellFormed vertex generation k) :
    (t.activeAttempts.map (·.id)).Nodup :=
  h.nodup_ids.sublist (List.filter_sublist.map _)

/-- The identities of a task that hold a slot are those of its place, `(vertex, k, generation)`, and
an active number. -/
theorem WellFormed.mem_activeIds {id : AttemptId} (h : t.WellFormed vertex generation k) :
    id ∈ t.activeAttempts.map (·.id) ↔
      id = { vertex, subtask := k, generation, number := id.number } ∧ t.IsActive id.number := by
  constructor
  · intro hid
    obtain ⟨a, ha, rfl⟩ := List.mem_map.1 hid
    obtain ⟨hmem, hactive⟩ := mem_activeAttempts.1 ha
    obtain ⟨n, hn⟩ := List.mem_iff_getElem?.1 hmem
    have heq := h.id_eq n a hn
    have hnumber := h.number_eq hn
    exact ⟨by rw [hnumber]; exact heq, a, by rw [hnumber]; exact hn, hactive⟩
  · rintro ⟨hid, a, ha, hactive⟩
    refine List.mem_map.2 ⟨a, mem_activeAttempts.2 ⟨List.mem_of_getElem? ha, hactive⟩, ?_⟩
    rw [h.id_eq _ a ha]
    exact hid.symm

/-- A task without attempts is well-formed at the place `k` of any generation. -/
theorem WellFormed.fresh : ({ subtask := k, createdAt := now } : Task).WellFormed vertex generation k
    where
  subtask_eq := rfl
  id_eq n a ha := by simp at ha
  winner_iff n := by simp

/-- A task stays well-formed when it gets an attempt with the next identity of its place that has
not finished. -/
theorem WellFormed.push (h : t.WellFormed vertex generation k)
    (hid : a.id = { vertex, subtask := k, generation, number := t.attempts.length })
    (hs : a.status ≠ .finished) : (t.push a).WellFormed vertex generation k where
  subtask_eq := h.subtask_eq
  id_eq n b hb := by
    rw [getElem?_push] at hb
    split at hb
    · next hn => cases hb; rw [hn]; exact hid
    · exact h.id_eq n b hb
  winner_iff n := by
    rw [getElem?_push]
    split
    · -- The number is new, and the new attempt has not finished.
      next hn =>
      have hnone : t.attempts[n]? = none := by rw [hn]; simp
      have hold := h.winner_iff n
      rw [hnone] at hold
      simpa [hs, Task.push] using hold
    · exact h.winner_iff n

/-- A step `f` of one attempt that neither finishes it nor hides that it finished keeps the task
well-formed. -/
theorem WellFormed.modifyAttempt {f : Attempt → Attempt} (h : t.WellFormed vertex generation k)
    (hid : ∀ a, (f a).id = a.id)
    (hs : ∀ a ∈ t.attempts[n]?, (f a).status = .finished ↔ a.status = .finished) :
    (t.modifyAttempt n f).WellFormed vertex generation k where
  subtask_eq := h.subtask_eq
  id_eq m b hb := by
    rw [getElem?_modifyAttempt] at hb
    split at hb
    · obtain ⟨a, ha, rfl⟩ := Option.map_eq_some_iff.1 hb
      rw [hid]
      exact h.id_eq m a ha
    · exact h.id_eq m b hb
  winner_iff m := by
    refine (h.winner_iff m).trans ?_
    rw [getElem?_modifyAttempt]
    split
    · next hnm =>
      subst hnm
      cases ha : t.attempts[n]? with
      | none => simp
      | some a => simp [hs a ha]
    · exact Iff.rfl

/-- The attempts of a won task: number `n` has finished, and all others are canceled. -/
theorem getElem?_win (inputBytes outputBytes : Option Nat) (m : Nat) :
    (t.win n inputBytes outputBytes now).attempts[m]? = (t.attempts[m]?).map fun a =>
      if a.id.number = n then a.finish inputBytes outputBytes now else a.cancel now :=
  List.getElem?_map

/-- The first finish wins: a task without a winner stays well-formed when its attempt number `n`
wins it. -/
theorem WellFormed.win (h : t.WellFormed vertex generation k) (hw : t.winner = none)
    (hn : n < t.attempts.length) (inputBytes outputBytes : Option Nat) :
    (t.win n inputBytes outputBytes now).WellFormed vertex generation k where
  subtask_eq := h.subtask_eq
  id_eq m b hb := by
    rw [getElem?_win] at hb
    obtain ⟨a, ha, rfl⟩ := Option.map_eq_some_iff.1 hb
    rw [← h.id_eq m a ha]
    split
    · exact Attempt.id_finish a _ _ _
    · exact Attempt.id_cancel a _
  winner_iff m := by
    show some n = some m ↔ _
    rw [getElem?_win]
    cases ha : t.attempts[m]? with
    | none =>
      have hle := List.getElem?_eq_none_iff.1 ha
      simp
      omega
    | some a =>
      have hnumber := h.number_eq ha
      by_cases hm : m = n
      · subst hm
        simp [hnumber, Attempt.finish]
      · -- A rival is canceled, or it had ended, but not with success: the task was not won.
        have hrival : (a.cancel now).status ≠ .finished := by
          unfold Attempt.cancel
          split
          · simp
          · exact h.no_finished hw ha
        simp [hnumber, hm, Ne.symm hm, hrival]

/-- The rivals of the attempt number `n` are the other attempts of the task that hold a slot. -/
theorem mem_rivalIds {id : AttemptId} : id ∈ (t.rivals n).map (·.id) ↔
    id ∈ t.activeAttempts.map (·.id) ∧ id.number ≠ n := by
  simp only [rivals, List.mem_map, List.mem_filter, decide_eq_true_eq]
  constructor
  · rintro ⟨a, ⟨ha, hne⟩, rfl⟩
    exact ⟨⟨a, ha, rfl⟩, hne⟩
  · rintro ⟨⟨a, ha, rfl⟩, hne⟩
    exact ⟨a, ⟨ha, hne⟩, rfl⟩

/-- No rival of an attempt is listed twice. -/
theorem WellFormed.nodup_rivalIds (h : t.WellFormed vertex generation k) :
    ((t.rivals n).map (·.id)).Nodup :=
  h.nodup_activeIds.sublist (List.filter_sublist.map _)

end Task

/-! ## Vertices -/

/-- A generation of a vertex. -/
structure VertexExecution.WellFormed (vertex : VertexId) (v : VertexExecution) : Prop where
  /-- The generation knows its vertex. -/
  vertex_eq : v.vertex = vertex
  /-- There are as many tasks as the parallelism says. -/
  length_tasks : v.tasks.length = v.parallelism
  /-- There is a task. -/
  parallelism_pos : 0 < v.parallelism
  /-- Every task is well-formed. -/
  task : ∀ (k : Nat) (t : Task), v.tasks[k]? = some t → t.WellFormed vertex v.generation k

namespace VertexExecution

variable {vertex : VertexId} {v : VertexExecution}

/-- The identities of a generation that hold a slot, task by task, as a `List.flatMap`. -/
theorem activeIds_eq_flatMap : v.activeAttempts.map (·.id) =
    v.tasks.flatMap fun t => t.activeAttempts.map (·.id) :=
  List.map_flatMap

/-- The identities of a generation that hold a slot are those of its vertex and its number whose
task has that attempt active. -/
theorem WellFormed.mem_activeIds {id : AttemptId} (h : v.WellFormed vertex) :
    id ∈ v.activeAttempts.map (·.id) ↔ id.vertex = vertex ∧ v.generation = id.generation ∧
      ∃ t ∈ v.tasks[id.subtask]?, t.IsActive id.number := by
  rw [activeIds_eq_flatMap, List.mem_flatMap]
  constructor
  · rintro ⟨t, ht, hid⟩
    obtain ⟨k, hk⟩ := List.mem_iff_getElem?.1 ht
    obtain ⟨heq, hactive⟩ := (h.task k t hk).mem_activeIds.1 hid
    have hsubtask : id.subtask = k := by rw [heq]
    exact ⟨by rw [heq], by rw [heq], t, by rw [hsubtask]; exact hk, hactive⟩
  · rintro ⟨hvertex, hgen, t, ht, hactive⟩
    refine ⟨t, List.mem_of_getElem? ht, (h.task _ t ht).mem_activeIds.2 ⟨?_, hactive⟩⟩
    exact AttemptId.ext hvertex rfl hgen.symm rfl

/-- Two active attempts of a generation have different identities, also when they are of different
tasks. -/
theorem WellFormed.nodup_activeIds (h : v.WellFormed vertex) :
    (v.activeAttempts.map (·.id)).Nodup := by
  rw [activeIds_eq_flatMap, List.nodup_flatMap]
  constructor
  · intro t ht
    obtain ⟨k, hk⟩ := List.mem_iff_getElem?.1 ht
    exact (h.task k t hk).nodup_activeIds
  · -- Tasks with different indices share no identity, since it names the index.
    rw [List.pairwise_iff_getElem]
    intro i j hi hj hij id hid hid'
    have hi' := ((h.task i _ (List.getElem?_eq_getElem hi)).mem_activeIds.1 hid).1
    have hj' := ((h.task j _ (List.getElem?_eq_getElem hj)).mem_activeIds.1 hid').1
    have hsubtask := congrArg AttemptId.subtask (hi'.symm.trans hj')
    exact Nat.ne_of_lt hij hsubtask

/-- A `fresh` generation with `parallelism ≠ 0` is well-formed. -/
theorem WellFormed.fresh {generation parallelism : Nat} {now : Instant} (h : parallelism ≠ 0) :
    (VertexExecution.fresh vertex generation parallelism now).WellFormed vertex where
  vertex_eq := rfl
  length_tasks := length_tasks_fresh vertex generation parallelism now
  parallelism_pos := Nat.pos_of_ne_zero h
  task k t ht := by
    simp only [VertexExecution.fresh, List.getElem?_map, Option.map_eq_some_iff] at ht
    obtain ⟨i, hi, rfl⟩ := ht
    obtain ⟨-, rfl⟩ := List.getElem?_eq_some_iff.1 hi
    rw [List.getElem_range]
    exact Task.WellFormed.fresh

/-- Changing the task `k` of a generation by `f` keeps it well-formed if the changed task is. -/
theorem WellFormed.modify {k : Nat} {f : Task → Task} (h : v.WellFormed vertex)
    (hf : ∀ t ∈ v.tasks[k]?, (f t).WellFormed vertex v.generation k) :
    ({ v with tasks := v.tasks.modify k f } : VertexExecution).WellFormed vertex where
  vertex_eq := h.vertex_eq
  length_tasks := (List.length_modify f v.tasks k).trans h.length_tasks
  parallelism_pos := h.parallelism_pos
  task i t ht := by
    rw [List.getElem?_modify] at ht
    split at ht
    · next hki =>
      subst hki
      obtain ⟨t', ht', rfl⟩ := Option.map_eq_some_iff.1 ht
      exact hf t' ht'
    · exact h.task i t (by simpa using ht)

/-- A generation with a task `k` that is not won is not finished. -/
theorem isFinished_eq_false {k : Nat} {t : Task} (ht : v.tasks[k]? = some t)
    (hw : t.winner = none) : v.isFinished = false := by
  rw [← Bool.not_eq_true, isFinished_iff]
  intro hall
  have hfinished := hall t (List.mem_of_getElem? ht)
  rw [Task.isFinished, hw] at hfinished
  cases hfinished

/-- The tasks of a `fresh` generation are not won, so it is not finished. -/
theorem isFinished_fresh {generation parallelism : Nat} {now : Instant} (h : parallelism ≠ 0) :
    (VertexExecution.fresh vertex generation parallelism now).isFinished = false := by
  -- There is a first task, and it has no winner.
  have hfirst : (VertexExecution.fresh vertex generation parallelism now).tasks[0]? =
      some { subtask := 0, createdAt := now } := by
    simp [fresh, List.getElem?_range (Nat.pos_of_ne_zero h)]
  exact isFinished_eq_false hfirst rfl

end VertexExecution

/-! ## Graphs -/

namespace ExecutionGraph

/-- Every generation is well-formed. -/
def WellFormed (g : ExecutionGraph) : Prop :=
  ∀ vertex v, g.get? vertex = some v → v.WellFormed vertex

/-- No won task holds a slot. -/
def Settled (g : ExecutionGraph) : Prop :=
  ∀ (vertex : VertexId) (v : VertexExecution) (k : Nat) (t : Task),
    g.get? vertex = some v → v.tasks[k]? = some t → t.Settled

variable {g : ExecutionGraph} {id other : AttemptId} {vertex : VertexId} {k : Nat}
  {f : Task → Task} {now : Instant}

/-- The empty graph `∅` is well-formed. -/
theorem wellFormed_empty : (∅ : ExecutionGraph).WellFormed := by
  intro vertex v hv
  simp at hv

/-- In the empty graph `∅` no won task holds a slot. -/
theorem settled_empty : (∅ : ExecutionGraph).Settled := by
  intro vertex v k t hv
  simp at hv

/-- The task that `id` names in a well-formed graph is well-formed at its place. -/
theorem WellFormed.taskOf? {t : Task} (h : g.WellFormed) (ht : g.taskOf? id = some t) :
    t.WellFormed id.vertex id.generation id.subtask := by
  obtain ⟨v, hv, hgen, htask⟩ := taskOf?_eq_some_iff.1 ht
  rw [← hgen]
  exact (h _ v hv).task _ t htask

/-- The task that `id` names in a `Settled` graph holds no slot once it is won. -/
theorem Settled.taskOf? {t : Task} (h : g.Settled) (ht : g.taskOf? id = some t) : t.Settled := by
  obtain ⟨v, hv, -, htask⟩ := taskOf?_eq_some_iff.1 ht
  exact h _ v _ t hv htask

/-- Where no won task holds a slot, a report about an attempt is applied exactly when the attempt
holds one: `Awaits` is `IsActive`. -/
theorem Settled.awaits_iff (h : g.Settled) : g.Awaits id ↔ g.IsActive id := by
  refine ⟨Awaits.isActive, ?_⟩
  intro hactive
  obtain ⟨t, ht, a, ha, hslot⟩ := isActive_iff.1 hactive
  refine ⟨t, ht, ⟨a, ha, hslot⟩, ?_⟩
  cases hw : t.winner with
  | none => rfl
  | some n =>
    -- A won task holds no slot, but the attempt does.
    have hnil : t.activeAttempts = [] := h.taskOf? ht (by rw [Task.isFinished, hw]; rfl)
    have hmem : a ∈ t.activeAttempts :=
      Task.mem_activeAttempts.2 ⟨List.mem_of_getElem? ha, hslot⟩
    rw [hnil] at hmem
    exact absurd hmem List.not_mem_nil

/-! ## Attempts that hold a slot -/

/-- The attempts of `vertex` that hold a slot are the active ones whose identity names it. -/
theorem mem_activeIdsOf (h : g.WellFormed) :
    id ∈ g.activeIdsOf vertex ↔ id.vertex = vertex ∧ g.IsActive id := by
  rw [isActive_iff]
  unfold activeIdsOf
  constructor
  · intro hid
    cases hv : g.get? vertex with
    | none => rw [hv] at hid; exact absurd hid List.not_mem_nil
    | some v =>
      rw [hv] at hid
      obtain ⟨hvertex, hgen, t, ht, hactive⟩ := (h _ v hv).mem_activeIds.1 hid
      exact ⟨hvertex, t, taskOf?_eq_some_iff.2 ⟨v, by rw [hvertex]; exact hv, hgen, ht⟩, hactive⟩
  · rintro ⟨rfl, t, ht, hactive⟩
    obtain ⟨v, hv, hgen, htask⟩ := taskOf?_eq_some_iff.1 ht
    rw [hv]
    exact (h _ v hv).mem_activeIds.2 ⟨rfl, hgen, t, htask, hactive⟩

/-- No attempt is listed twice in `activeIdsOf vertex`. -/
theorem nodup_activeIdsOf (h : g.WellFormed) : (g.activeIdsOf vertex).Nodup := by
  unfold activeIdsOf
  cases hv : g.get? vertex with
  | none => exact List.nodup_nil
  | some v => exact (h _ v hv).nodup_activeIds

/-- The identities of all attempts that hold a slot. -/
def activeIds (g : ExecutionGraph) : List AttemptId :=
  (g.toList.flatMap VertexExecution.activeAttempts).map (·.id)

/-- The list `g.activeIds` consists of the active attempts of the graph. -/
theorem mem_activeIds (h : g.WellFormed) : id ∈ g.activeIds ↔ g.IsActive id := by
  unfold activeIds
  rw [List.map_flatMap, List.mem_flatMap, isActive_iff]
  constructor
  · rintro ⟨v, hv, hid⟩
    obtain ⟨vertex, hget⟩ := mem_toList.1 hv
    obtain ⟨rfl, hgen, t, ht, hactive⟩ := (h _ v hget).mem_activeIds.1 hid
    exact ⟨t, taskOf?_eq_some_iff.2 ⟨v, hget, hgen, ht⟩, hactive⟩
  · rintro ⟨t, ht, hactive⟩
    obtain ⟨v, hget, hgen, htask⟩ := taskOf?_eq_some_iff.1 ht
    exact ⟨v, mem_toList.2 ⟨_, hget⟩, (h _ v hget).mem_activeIds.2 ⟨rfl, hgen, t, htask, hactive⟩⟩

/-- No attempt is listed twice in `g.activeIds`, since identities name their vertex. -/
theorem nodup_activeIds (h : g.WellFormed) : g.activeIds.Nodup := by
  unfold activeIds toList
  rw [List.map_flatMap, List.flatMap_map, List.nodup_flatMap]
  have hget {p : VertexId × VertexExecution} (hp : p ∈ g.vertices.toList) :
      g.get? p.1 = some p.2 :=
    Std.ExtTreeMap.mem_toList_iff_getElem?_eq_some.1 hp
  refine ⟨fun p hp => (h _ _ (hget hp)).nodup_activeIds, ?_⟩
  -- An identity names its vertex, so different vertices share none.
  refine Std.ExtTreeMap.distinct_keys_toList.imp_of_mem fun {p q} hp hq hne id hid hid' => ?_
  have hp' := ((h _ _ (hget hp)).mem_activeIds.1 hid).1
  have hq' := ((h _ _ (hget hq)).mem_activeIds.1 hid').1
  exact hne (Std.LawfulEqCmp.compare_eq_iff_eq.2 (hp'.symm.trans hq'))

/-! ## Changes -/

/-- Changing the task `k` of `vertex` by `f` keeps the graph well-formed if the changed task is. -/
theorem WellFormed.modifyTask (h : g.WellFormed)
    (hf : ∀ v t, g.get? vertex = some v → v.tasks[k]? = some t →
      (f t).WellFormed vertex v.generation k) : (g.modifyTask vertex k f).WellFormed := by
  intro w v hv
  rw [get?_modifyTask] at hv
  split at hv
  · next hw =>
    subst hw
    obtain ⟨v', hv', rfl⟩ := Option.map_eq_some_iff.1 hv
    exact (h _ v' hv').modify fun t ht => hf v' t hv' ht
  · exact h w v hv

/-- Changing the task `k` of `vertex` by `f` keeps the graph `Settled` if the changed task is. -/
theorem Settled.modifyTask (h : g.Settled)
    (hf : ∀ v t, g.get? vertex = some v → v.tasks[k]? = some t → (f t).Settled) :
    (g.modifyTask vertex k f).Settled :=
  EachTask.modifyTask h hf

/-- Regenerating with `parallelism ≠ 0` keeps the graph well-formed. -/
theorem WellFormed.regenerate {parallelism : Nat} (h : g.WellFormed) (hp : parallelism ≠ 0) :
    (g.regenerate vertex parallelism now).WellFormed := by
  intro w v hv
  rw [get?_regenerate] at hv
  split at hv
  · next hw => cases hv; subst hw; exact .fresh hp
  · exact h w v hv

/-- Regenerating keeps the graph `Settled`: fresh tasks hold no slot. -/
theorem Settled.regenerate {parallelism : Nat} (h : g.Settled) :
    (g.regenerate vertex parallelism now).Settled := by
  apply EachTask.regenerate h
  intro t hnone _
  rw [Task.activeAttempts, hnone]
  rfl

/-- A graph stays well-formed when it gets an attempt with a next identity that has not finished. -/
theorem WellFormed.push {a : Attempt} (h : g.WellFormed) (hnext : g.IsNext a.id)
    (hs : a.status ≠ .finished) : (g.push a).WellFormed := by
  obtain ⟨t, ht, hnumber⟩ := hnext
  obtain ⟨v, hv, hgen, htask⟩ := taskOf?_eq_some_iff.1 ht
  apply h.modifyTask
  intro w t' hw ht'
  obtain ⟨rfl, rfl⟩ := task_unique hv htask hw ht'
  exact ((h _ v hv).task _ t htask).push (AttemptId.ext rfl rfl hgen.symm hnumber) hs

/-- A graph stays `Settled` when the task that gets an attempt is not won. -/
theorem Settled.push {a : Attempt} (h : g.Settled)
    (hopen : ∀ t ∈ g.taskOf? a.id, t.winner = none) (hnext : g.IsNext a.id) :
    (g.push a).Settled := by
  obtain ⟨t, ht, -⟩ := hnext
  obtain ⟨v, hv, -, htask⟩ := taskOf?_eq_some_iff.1 ht
  apply h.modifyTask
  intro w t' hw ht'
  obtain ⟨rfl, rfl⟩ := task_unique hv htask hw ht'
  exact Task.settled_of_winner_eq_none (hopen t ht)

end ExecutionGraph

end AdaptiveBatch
