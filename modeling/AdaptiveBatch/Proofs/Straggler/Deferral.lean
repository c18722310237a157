import AdaptiveBatch.Proofs.Execution.Operations
import AdaptiveBatch.Proofs.Straggler.Launches
import Mathlib

/-! # Launched or deferred

A round of speculative execution takes the deferred tasks and those of the slow attempts, each once,
in ascending order. It forgets those that are finished, belong to an earlier generation, or have as
many attempts as they may have. Each of the others leaves the round in one of two ways: with a
launch, or deferred for the next round.

* **`TaskKey.precedes_total`**, **`TaskKey.precedes_antisymm`** — the order of the tasks;
* **`Speculation.Due`** — the tasks that a round has to deal with;
* **`Surroundings.Full`** — no node has room for a vertex, besides some launches;
* **`Speculation.Accounts`** — what a round has made of the tasks so far; kept by every task;
* **`Speculation.due_launched_or_deferred`** — the same for a whole round. -/

namespace AdaptiveBatch

variable {s : Speculation} {slow : List SlowAttempt} {around : Surroundings} {key : TaskKey}
  {round next : SpeculationRound} {done : List TaskKey}

/-! ## The order of the tasks -/

namespace TaskKey

variable {a b c : TaskKey}

/-- The order of tasks is lexicographic: by `vertex`, then by `subtask`, then by `generation`. -/
theorem precedes_iff : a.precedes b = true ↔ a.vertex < b.vertex ∨ a.vertex = b.vertex ∧
    (a.subtask < b.subtask ∨ a.subtask = b.subtask ∧ a.generation ≤ b.generation) := by
  simp [precedes]

/-- Of any two tasks one `precedes` the other. -/
theorem precedes_total (a b : TaskKey) : (a.precedes b || b.precedes a) = true := by
  rw [Bool.or_eq_true, precedes_iff, precedes_iff]
  by_cases hab : a.vertex < b.vertex
  · exact Or.inl (Or.inl hab)
  · by_cases hba : b.vertex < a.vertex
    · exact Or.inr (Or.inl hba)
    · have heq := String.le_antisymm (String.not_lt.1 hba) (String.not_lt.1 hab)
      simp only [heq, String.lt_irrefl, false_or, true_and]
      omega

/-- The order `precedes` is transitive. -/
theorem precedes_trans (a b c : TaskKey) (h : a.precedes b = true) (h' : b.precedes c = true) :
    a.precedes c = true := by
  rw [precedes_iff] at *
  rcases h with h | ⟨heq, h⟩
  · rcases h' with h' | ⟨heq', -⟩
    · exact Or.inl (String.lt_trans h h')
    · exact Or.inl (heq' ▸ h)
  · rcases h' with h' | ⟨heq', h'⟩
    · exact Or.inl (heq ▸ h')
    · exact Or.inr ⟨heq.trans heq', by omega⟩

/-- Two tasks that precede each other are the same. -/
theorem precedes_antisymm (h : a.precedes b = true) (h' : b.precedes a = true) : a = b := by
  rw [precedes_iff] at h h'
  rcases h with h | ⟨heq, h⟩
  · rcases h' with h' | ⟨heq', -⟩
    · exact absurd h' (String.lt_asymm h)
    · exact absurd (heq' ▸ h) (String.lt_irrefl _)
  · rcases h' with h' | ⟨-, h'⟩
    · exact absurd (heq ▸ h') (String.lt_irrefl _)
    · exact TaskKey.ext heq (by omega) (by omega)

end TaskKey

namespace Speculation

/-! ## The tasks of a round -/

/-- The tasks of a round are the deferred ones and those of the slow attempts. -/
theorem mem_keys : key ∈ s.keys slow ↔
    key ∈ s.deferred ∨ ∃ a ∈ slow, TaskKey.ofAttempt a.id = key := by
  rw [keys, List.mem_eraseDups, List.mem_mergeSort, List.mem_append, List.mem_map]

/-- No task comes twice in a round. -/
theorem nodup_keys (s : Speculation) (slow : List SlowAttempt) : (s.keys slow).Nodup :=
  nodup_eraseDups _

/-- The tasks of a round come in strictly ascending order by `precedes`. -/
theorem pairwise_keys (s : Speculation) (slow : List SlowAttempt) :
    (s.keys slow).Pairwise fun a b => a.precedes b = true ∧ b.precedes a = false := by
  have hsorted : (s.keys slow).Pairwise fun a b => a.precedes b = true :=
    (List.pairwise_mergeSort TaskKey.precedes_trans TaskKey.precedes_total _).sublist
      (eraseDups_sublist _)
  refine (hsorted.and (s.nodup_keys slow)).imp fun ⟨hab, hne⟩ => ⟨hab, ?_⟩
  rw [← Bool.not_eq_true]
  exact fun hba => hne (TaskKey.precedes_antisymm hab hba)

/-- The task may get one more attempt: it is of the current generation, is not won, and has fewer
active attempts than it may have. -/
def MayGrow (s : Speculation) (g : ExecutionGraph) (key : TaskKey) : Prop :=
  ∃ v t, g.get? key.vertex = some v ∧ v.generation = key.generation ∧
    v.tasks[key.subtask]? = some t ∧ t.winner = none ∧
    t.activeCount < s.settings.maxConcurrentExecutions

/-- A task is a candidate for one more attempt iff it `MayGrow`. -/
theorem isSome_candidate?_iff {g : ExecutionGraph} :
    (s.candidate? g key).isSome = true ↔ s.MayGrow g key := by
  simp only [Option.isSome_iff_exists, candidate?_eq_some_iff]
  exact exists_comm

/-- A round has to deal with the task: it is deferred, or one of its attempts is slow, and it may
get one more attempt. -/
def Due (s : Speculation) (slow : List SlowAttempt) (g : ExecutionGraph) (key : TaskKey) : Prop :=
  (key ∈ s.deferred ∨ ∃ a ∈ slow, TaskKey.ofAttempt a.id = key) ∧ s.MayGrow g key

end Speculation

/-! ## One task after the other -/

/-- No node has room for a vertex: each that is not blocked hosts as many attempts of it as it has
slots, where those of the launches count. -/
def Surroundings.Full (around : Surroundings) (launches : List Launch) (vertex : VertexId) : Prop :=
  ∀ node ∈ around.view.nodes, around.slow.isBlocked node around.now = false →
    around.view.slotsOn node ≤
      (around.graph.vertexNodeCounts vertex).on node + launchesOn launches vertex node

namespace Speculation

/-- No node is chosen for one more attempt iff none has room, `around.Full launches key.vertex`. -/
theorem nodeFor?_eq_none_iff {launches : List Launch} {t : Task} :
    s.nodeFor? around launches key t = none ↔ around.Full launches key.vertex := by
  unfold nodeFor?
  rw [selectNode_nodeLoads_eq_none_iff]
  simp only [NodeCounts.on_addAll, count_nodes_of_vertex]
  rfl

/-- What a round has made of the tasks that it has considered so far. -/
structure Accounts (s : Speculation) (around : Surroundings) (done : List TaskKey)
    (round : SpeculationRound) : Prop where
  /-- The launched and the deferred tasks are those that may get one more attempt. -/
  perm : (round.launches.map (·.task) ++ round.deferred).Perm
    (done.filter fun key => (s.candidate? around.graph key).isSome)
  /-- For a deferred task no node had room, with the launches in front of it. -/
  full : ∀ key ∈ round.deferred,
    around.Full (round.launches.filter (·.task.precedes key)) key.vertex

/-- A round that has considered no task accounts for none. -/
theorem accounts_nil : s.Accounts around [] {} := ⟨.refl [], fun _ h => absurd h List.not_mem_nil⟩

/-- A task that a round has deferred is one that it has considered. -/
theorem Accounts.mem_done_of_mem_deferred (h : s.Accounts around done round)
    (hkey : key ∈ round.deferred) : key ∈ done :=
  (List.mem_filter.1 (h.perm.mem_iff.1 (List.mem_append_right _ hkey))).1

/-- A task that a round has launched is one that it has considered. -/
theorem Accounts.mem_done_of_mem_launches {l : Launch} (h : s.Accounts around done round)
    (hl : l ∈ round.launches) : l.task ∈ done :=
  (List.mem_filter.1 (h.perm.mem_iff.1
    (List.mem_append_left _ (List.mem_map_of_mem hl)))).1

/-- A task that may get one more attempt is launched or deferred, and no other is: the two lists of
the `next` round hold one more candidate. -/
theorem Considered.perm (hnext : s.Considered around round key next) :
    (next.launches.map (·.task) ++ next.deferred).Perm
      (round.launches.map (·.task) ++ round.deferred ++
        [key].filter fun key => (s.candidate? around.graph key).isSome) := by
  cases hnext with
  | skipped hno =>
    rw [List.filter_cons_of_neg (by rw [hno]; exact Bool.false_ne_true), List.filter_nil,
      List.append_nil]
  | launched ht =>
    rw [List.filter_cons_of_pos (by rw [ht]; rfl), List.filter_nil, List.map_append,
      List.append_assoc, List.append_assoc]
    exact List.perm_append_comm.append_left _
  | deferred ht =>
    rw [List.filter_cons_of_pos (by rw [ht]; rfl), List.filter_nil, List.append_assoc]

/-- A round accounts for one more task, `key`, which comes behind the others. -/
theorem Considered.accounts (hnext : s.Considered around round key next)
    (h : s.Accounts around done round)
    (hlast : ∀ other ∈ done, other.precedes key = true ∧ key.precedes other = false) :
    s.Accounts around (done ++ [key]) next where
  perm := by
    rw [List.filter_append]
    exact hnext.perm.trans (h.perm.append_right _)
  full := by
    cases hnext with
    | skipped => exact h.full
    | launched =>
      intro other hother
      -- The launch comes behind every task that was deferred before.
      have hbehind : key.precedes other ≠ true := by
        rw [(hlast other (h.mem_done_of_mem_deferred hother)).2]
        exact Bool.false_ne_true
      rw [List.filter_append, List.filter_cons_of_neg (by exact hbehind), List.filter_nil,
        List.append_nil]
      exact h.full other hother
    | deferred ht hnode =>
      intro other hother
      rcases List.mem_append.1 hother with hother | hother
      · exact h.full other hother
      · obtain rfl := List.mem_singleton.1 hother
        -- All launches so far are in front of the task.
        rw [List.filter_eq_self.2 fun l hl => (hlast _ (h.mem_done_of_mem_launches hl)).1]
        exact nodeFor?_eq_none_iff.1 hnode

/-- A round accounts for any number of tasks `keys` in their order. -/
theorem accounts_foldl (keys : List TaskKey) (h : s.Accounts around done round)
    (hsorted : (done ++ keys).Pairwise fun a b => a.precedes b = true ∧ b.precedes a = false) :
    s.Accounts around (done ++ keys) (keys.foldl (s.consider around) round) := by
  induction keys generalizing round done with
  | nil => rwa [List.append_nil]
  | cons key keys ih =>
    have hlast := fun other hother =>
      (List.pairwise_append.1 hsorted).2.2 other hother key List.mem_cons_self
    rw [List.append_cons] at hsorted ⊢
    exact ih ((s.considered around round key).accounts h hlast) hsorted

/-- A round accounts for all its tasks, `s.keys slow`. -/
theorem accounts_considerAll (s : Speculation) (around : Surroundings) (slow : List SlowAttempt) :
    s.Accounts around (s.keys slow) (s.considerAll around (s.keys slow)) :=
  accounts_foldl (s.keys slow) accounts_nil (s.pairwise_keys slow)

/-! ## The whole round -/

/-- A round fails only when the blocks of slow nodes, of `blockSlowNodeDuration`, would end beyond
the end of the clock. -/
theorem exists_react_eq_ok_iff (henabled : s.settings.enabled = true) :
    (∃ r, s.react slow around = .ok r) ↔
      slow = [] ∨ ∃ u, around.now.add s.settings.blockSlowNodeDuration = .ok u := by
  rw [← List.map_eq_nil_iff, ← SlowNodes.exists_blockAll_eq_ok_iff]
  constructor
  · rintro ⟨⟨launches, s', registry⟩, h⟩
    exact ⟨registry, ((react_eq_ok_iff henabled).1 h).1⟩
  · rintro ⟨registry, h⟩
    exact ⟨(_, { s with deferred := _ }, registry),
      (react_eq_ok_iff henabled).2 ⟨h, rfl, rfl⟩⟩

/-- The tasks that a round accounts for are those that it has to deal with, the ones that are
`Due`. -/
theorem mem_filter_keys_iff {g : ExecutionGraph} :
    key ∈ (s.keys slow).filter (fun key => (s.candidate? g key).isSome) ↔ s.Due slow g key := by
  rw [List.mem_filter, mem_keys, isSome_candidate?_iff]
  rfl

/-- **Each slow or deferred task is launched or deferred.** A round fails only when the blocks of
the slow nodes would end beyond the end of the clock. Otherwise a task that was deferred, or of
which an attempt is slow, and that may get one more attempt (`Due`) is afterwards in exactly one
place: in one launch, or once among the deferred tasks. All other tasks are in neither. And a task
is deferred only when no node has room for its vertex, where the launches in front of it count
(`Full`). -/
theorem due_launched_or_deferred (s : Speculation) (slow : List SlowAttempt)
    (around : Surroundings) (henabled : s.settings.enabled = true) :
    ((∃ r, s.react slow around = .ok r) ↔
      slow = [] ∨ ∃ u, around.now.add s.settings.blockSlowNodeDuration = .ok u) ∧
    ∀ launches s' registry, s.react slow around = .ok (launches, s', registry) →
      around.slow.blockAll (slow.map (·.node)) around.now s.settings.blockSlowNodeDuration =
        .ok registry ∧
      ∀ key : TaskKey,
        (s.Due slow around.graph key →
          (launches.map (·.task)).count key + s'.deferred.count key = 1) ∧
        (¬s.Due slow around.graph key →
          key ∉ launches.map (·.task) ∧ key ∉ s'.deferred) ∧
        (key ∈ s'.deferred → ({ around with slow := registry } : Surroundings).Full
          (launches.filter (·.task.precedes key)) key.vertex) := by
  refine ⟨exists_react_eq_ok_iff henabled, fun launches s' registry h => ?_⟩
  obtain ⟨hblocks, hround, -⟩ := (react_eq_ok_iff henabled).1 h
  have haccounts := s.accounts_considerAll { around with slow := registry } slow
  rw [hround] at haccounts
  have hnodup : (launches.map (·.task) ++ s'.deferred).Nodup :=
    haccounts.perm.nodup_iff.2 ((s.nodup_keys slow).filter _)
  have hmem (key : TaskKey) : key ∈ launches.map (·.task) ++ s'.deferred ↔
      s.Due slow around.graph key :=
    haccounts.perm.mem_iff.trans mem_filter_keys_iff
  refine ⟨hblocks, fun key => ⟨fun hdue => ?_, fun hdue => ?_, haccounts.full key⟩⟩
  · rw [← List.count_append]
    exact List.count_eq_one_of_mem hnodup ((hmem key).2 hdue)
  · rw [← hmem key, List.mem_append, not_or] at hdue
    exact hdue

/-- Three tasks on one node, of which the last has finished, and a second node with one slot. -/
def sampleAround : Surroundings where
  graph := ExecutionGraph.run ∅
    [(.origin, .startGeneration "map" 3), (.origin, .addAttempt "map" 0 "a" false),
      (.origin, .addAttempt "map" 1 "a" false), (.origin, .addAttempt "map" 2 "a" false),
      (.origin, .finishAttempt ⟨"map", 2, 1, 0⟩ none none)]
  view := ((∅ : ResourceView).addNode "a" 3 1 0).addNode "b" 1 1 0
  slow := ∅
  now := ⟨9, by decide⟩

/-- The second task waits for a node. -/
def sampleSpeculation : Speculation where
  settings := { enabled := true }
  mode := .none
  deferred := [⟨"map", 1, 1⟩]

/-- Slow attempts of the finished task, of the first one, of an earlier generation, and of the first
one again. -/
def sampleSlow : List SlowAttempt :=
  [(2, 1), (0, 1), (0, 0), (0, 1)].map fun (subtask, generation) =>
    { id := ⟨"map", subtask, generation, 0⟩
      node := "a"
      elapsed := .ofSeconds 90
      threshold := .ofSeconds 60 }

/-- The first task of the sample gets the slot on `"b"`, the other node, and the second one waits
on. -/
theorem due_launched_or_deferred_sample : ∃ launches s' registry,
    sampleSpeculation.react sampleSlow sampleAround = .ok (launches, s', registry) ∧
    launches = [⟨⟨"map", 0, 1⟩, "b"⟩] ∧ s'.deferred = [⟨"map", 1, 1⟩] ∧
    (launches.map (·.task)).count ⟨"map", 0, 1⟩ + s'.deferred.count ⟨"map", 0, 1⟩ = 1 ∧
    ({ sampleAround with slow := registry } : Surroundings).Full launches "map" := by
  have heval : (sampleSpeculation.react sampleSlow sampleAround).map
      (fun r => (r.1, r.2.1.deferred)) = .ok ([⟨⟨"map", 0, 1⟩, "b"⟩], [⟨"map", 1, 1⟩]) := by
    cbv
  obtain ⟨hok, hround⟩ := due_launched_or_deferred sampleSpeculation sampleSlow sampleAround rfl
  obtain ⟨⟨launches, s', registry⟩, h⟩ := hok.2 (Or.inr ⟨_, rfl⟩)
  obtain ⟨-, htasks⟩ := hround launches s' registry h
  rw [h] at heval
  simp only [Except.map, Except.ok.injEq, Prod.mk.injEq] at heval
  obtain ⟨hlaunches, hdeferred⟩ := heval
  have hdue : sampleSpeculation.Due sampleSlow sampleAround.graph ⟨"map", 0, 1⟩ :=
    ⟨Or.inr (by decide), isSome_candidate?_iff.1 (by decide +kernel)⟩
  have hfull := (htasks ⟨"map", 1, 1⟩).2.2 (by rw [hdeferred]; decide)
  refine ⟨launches, s', registry, h, hlaunches, hdeferred, (htasks _).1 hdue, ?_⟩
  -- The one launch is in front of the deferred task.
  rw [List.filter_eq_self.2 (by rw [hlaunches]; decide)] at hfull
  exact hfull

end Speculation

end AdaptiveBatch
