import AdaptiveBatch.Proofs.Cluster.Placement
import AdaptiveBatch.Straggler.Speculation
import Mathlib.Data.List.Basic

/-! # Planned launches

The launches of a round are planned before any of them is carried out. Each of them counts the ones
in front of it, so there is room for it once those have been carried out, whatever the backend has
made of them; and each belongs to another task.

* **`Speculation.Considered`** — all that can become of a task that is considered;
* **`Speculation.Planned`** — what holds of a planned list;
* **`Speculation.react_eq_ok_iff`**, **`Speculation.react_eq_ok`** — what a round returns; its launches
  are planned, for different tasks. -/

namespace AdaptiveBatch

/-- Every element of `l.eraseDups` occurs once. -/
theorem nodup_eraseDups {α : Type} [BEq α] [LawfulBEq α] : ∀ l : List α, l.eraseDups.Nodup
  | [] => List.nodup_nil
  | a :: rest => by
    rw [List.eraseDups_cons, List.nodup_cons]
    refine ⟨?_, nodup_eraseDups _⟩
    intro hmem
    have hne := (List.mem_filter.1 (List.mem_eraseDups.1 hmem)).2
    simp at hne
termination_by l => l.length
decreasing_by exact Nat.lt_succ_of_le (List.length_filter_le _ _)

/-- A list without its duplicates, `l.eraseDups`, is a part of it, in the same order. -/
theorem eraseDups_sublist {α : Type} [BEq α] : ∀ l : List α, l.eraseDups.Sublist l
  | [] => List.Sublist.refl []
  | a :: rest => by
    rw [List.eraseDups_cons]
    exact ((eraseDups_sublist _).trans List.filter_sublist).cons_cons a
termination_by l => l.length
decreasing_by exact Nat.lt_succ_of_le (List.length_filter_le _ _)

/-- How many launches add an attempt of a vertex to a node. -/
def launchesOn (launches : List Launch) (vertex : VertexId) (node : NodeId) : Nat :=
  launches.countP fun l => l.task.vertex = vertex ∧ l.node = node

/-- The launches of a vertex, counted by node, are those of `launchesOn`. -/
theorem count_nodes_of_vertex (launches : List Launch) (vertex : VertexId) (node : NodeId) :
    ((launches.filter (·.task.vertex = vertex)).map (·.node)).count node =
      launchesOn launches vertex node := by
  rw [List.count, List.countP_map, List.countP_filter]
  unfold launchesOn
  congr 1
  funext l
  by_cases hn : l.node = node <;> simp [hn]

/-- One more launch `l` raises the count of its vertex on its node by one, and no other count. -/
theorem launchesOn_concat (before : List Launch) (l : Launch) (vertex : VertexId) (node : NodeId) :
    launchesOn (before ++ [l]) vertex node =
      launchesOn before vertex node + if l.task.vertex = vertex ∧ l.node = node then 1 else 0 := by
  unfold launchesOn
  rw [List.countP_append, List.countP_singleton]
  simp

namespace Speculation

variable {s : Speculation} {around : Surroundings} {launches : List Launch} {l : Launch}
  {key : TaskKey} {round next : SpeculationRound}

/-- A task that may get one more attempt is of the current generation, is not won, and has fewer
active attempts than `maxConcurrentExecutions`. -/
theorem candidate?_eq_some_iff {g : ExecutionGraph} {t : Task} :
    s.candidate? g key = some t ↔
      ∃ v, g.get? key.vertex = some v ∧ v.generation = key.generation ∧
        v.tasks[key.subtask]? = some t ∧ t.winner = none ∧
        t.activeCount < s.settings.maxConcurrentExecutions := by
  unfold candidate?
  cases g.get? key.vertex with
  | none => simp
  | some v =>
    by_cases hgen : v.generation = key.generation
    · simp [hgen, Option.filter_eq_some_iff, Task.isFinished]
    · simp [hgen]

/-- What becomes of a task that is considered. -/
inductive Considered (s : Speculation) (around : Surroundings) (round : SpeculationRound)
    (key : TaskKey) : SpeculationRound → Prop
  /-- It may not get one more attempt. -/
  | skipped (h : s.candidate? around.graph key = none) : Considered s around round key round
  /-- It gets one more attempt. -/
  | launched {t : Task} {node : NodeId} (ht : s.candidate? around.graph key = some t)
      (hnode : s.nodeFor? around round.launches key t = some node) :
      Considered s around round key
        { round with launches := round.launches ++ [{ task := key, node }] }
  /-- It waits for a node. -/
  | deferred {t : Task} (ht : s.candidate? around.graph key = some t)
      (hnode : s.nodeFor? around round.launches key t = none) :
      Considered s around round key { round with deferred := round.deferred ++ [key] }

/-- Considering a task leads to one of the cases of `Considered`. -/
theorem considered (s : Speculation) (around : Surroundings) (round : SpeculationRound)
    (key : TaskKey) : s.Considered around round key (s.consider around round key) := by
  unfold consider
  cases ht : s.candidate? around.graph key with
  | none => exact .skipped ht
  | some t =>
    cases hnode : s.nodeFor? around round.launches key t with
    | none => simpa only [hnode] using .deferred ht hnode
    | some node => simpa only [hnode] using .launched ht hnode

/-- One more launch fits behind others: its task may get one more attempt, and its node has room
even if all the others are carried out. -/
structure Fits (s : Speculation) (around : Surroundings) (before : List Launch) (l : Launch) :
    Prop where
  /-- The task may get one more attempt. -/
  candidate : ∃ t, s.candidate? around.graph l.task = some t
  /-- The node is in the view. -/
  mem_nodes : l.node ∈ around.view.nodes
  /-- It is not blocked. -/
  not_blocked : around.slow.isBlocked l.node around.now = false
  /-- It has a slot without an attempt of the vertex. -/
  count_lt : (around.graph.vertexNodeCounts l.task.vertex).on l.node +
    launchesOn before l.task.vertex l.node < around.view.slotsOn l.node

/-- Every launch of a list fits behind those in front of it. -/
def Planned (s : Speculation) (around : Surroundings) (launches : List Launch) : Prop :=
  ∀ before l rest, launches = before ++ l :: rest → s.Fits around before l

/-- No launches at all are planned. -/
theorem planned_nil : s.Planned around [] := by
  intro before l rest h
  simp at h

/-- Planned launches and one more that `Fits` behind them are planned. -/
theorem Planned.concat (h : s.Planned around launches) (hl : s.Fits around launches l) :
    s.Planned around (launches ++ [l]) := by
  intro before l' rest heq
  -- The launch in question is the new one, or it stands among the others.
  rcases List.eq_nil_or_concat rest with rfl | ⟨rest', last, rfl⟩
  · obtain ⟨rfl, hlast⟩ := List.append_inj' heq rfl
    cases hlast
    exact hl
  · rw [List.concat_eq_append, ← List.cons_append, ← List.append_assoc] at heq
    exact h before l' rest' (List.append_inj' heq rfl).1

/-- A node chosen by `nodeFor?` fits behind the launches so far. -/
theorem fits_of_nodeFor? {t : Task} {node : NodeId} (ht : s.candidate? around.graph key = some t)
    (hnode : s.nodeFor? around launches key t = some node) :
    s.Fits around launches { task := key, node } := by
  unfold nodeFor? at hnode
  obtain ⟨hmem, hblocked, hcount⟩ := selectNode_nodeLoads hnode
  refine ⟨⟨t, ht⟩, hmem, hblocked, ?_⟩
  -- The loads count the launches of the vertex so far on top of its attempts.
  rw [NodeCounts.on_addAll, count_nodes_of_vertex] at hcount
  exact hcount

/-- Considering a task leaves the launches planned. -/
theorem Considered.planned (hnext : s.Considered around round key next)
    (h : s.Planned around round.launches) : s.Planned around next.launches := by
  cases hnext with
  | skipped | deferred => exact h
  | launched ht hnode => exact h.concat (fits_of_nodeFor? ht hnode)

/-- Considering a task launches it last, as `key`, or not at all. -/
theorem Considered.tasks (hnext : s.Considered around round key next) :
    (next.launches.map (·.task)).Sublist (round.launches.map (·.task) ++ [key]) := by
  cases hnext with
  | skipped | deferred => exact List.sublist_append_left _ _
  | launched => rw [List.map_append]; exact List.Sublist.refl _

/-- The launches of a round are planned, and their tasks come in the order of the `keys`. -/
theorem planned_foldl (keys done : List TaskKey) (h : s.Planned around round.launches)
    (htasks : (round.launches.map (·.task)).Sublist done) :
    s.Planned around (keys.foldl (s.consider around) round).launches ∧
      ((keys.foldl (s.consider around) round).launches.map (·.task)).Sublist (done ++ keys) := by
  induction keys generalizing round done with
  | nil => exact ⟨h, by rw [List.append_nil]; exact htasks⟩
  | cons key keys ih =>
    have hnext := s.considered around round key
    have hstep := ih (done ++ [key]) (hnext.planned h)
      (hnext.tasks.trans (htasks.append (List.Sublist.refl [key])))
    rw [List.append_assoc] at hstep
    exact hstep

/-- What a round returns: the registry of `blockAll`, and the launches and the deferred tasks of
`considerAll` with that registry. -/
theorem react_eq_ok_iff {slow : List SlowAttempt} {s' : Speculation} {registry : SlowNodes}
    (henabled : s.settings.enabled = true) :
    s.react slow around = .ok (launches, s', registry) ↔
      around.slow.blockAll (slow.map (·.node)) around.now s.settings.blockSlowNodeDuration =
        .ok registry ∧
      s.considerAll { around with slow := registry } (s.keys slow) = ⟨launches, s'.deferred⟩ ∧
      s' = { s with deferred := s'.deferred } := by
  unfold react
  rw [if_pos henabled]
  cases around.slow.blockAll (slow.map (·.node)) around.now s.settings.blockSlowNodeDuration with
  | error o => simp [bind, Except.bind]
  | ok blocked =>
    simp only [bind, Except.bind, pure, Except.pure, Except.ok.injEq, Prod.mk.injEq]
    constructor
    · rintro ⟨rfl, rfl, rfl⟩
      exact ⟨rfl, rfl, rfl⟩
    · rintro ⟨rfl, hround, hs'⟩
      rw [hround]
      exact ⟨rfl, hs'.symm, rfl⟩

/-- The launches of a round are planned with the new registry, and each belongs to another task. -/
theorem react_eq_ok {slow : List SlowAttempt} {s' : Speculation} {registry : SlowNodes}
    (h : s.react slow around = .ok (launches, s', registry)) :
    s.Planned { around with slow := registry } launches ∧ (launches.map (·.task)).Nodup ∧
      s'.settings = s.settings := by
  cases henabled : s.settings.enabled with
  | false =>
    rw [react, henabled, if_neg Bool.false_ne_true] at h
    cases h
    exact ⟨planned_nil, List.nodup_nil, rfl⟩
  | true =>
    obtain ⟨-, hround, hs'⟩ := (react_eq_ok_iff henabled).1 h
    have hnothing : s.Planned { around with slow := registry } ({} : SpeculationRound).launches :=
      planned_nil
    obtain ⟨hplanned, htasks⟩ := planned_foldl (s.keys slow) [] hnothing (List.Sublist.refl [])
    rw [considerAll] at hround
    rw [hround] at hplanned htasks
    exact ⟨hplanned, (nodup_eraseDups _).sublist htasks, by rw [hs']⟩

end Speculation

end AdaptiveBatch
