import AdaptiveBatch.Proofs.Execution.NodeCounts
import AdaptiveBatch.Proofs.Straggler.Deferral

/-! # Attempts that are added at once

A round of speculative execution does not change the graph: its launches are carried out when all of
them are known. In the meantime it counts them on top of the attempts of the graph, twice: those of
all vertices for the balance of the nodes, and those of the vertex in question for its free slots.
The round comes to the same end as one that adds the attempt of each launch to the graph before it
considers the next task, and counts the attempts of the graph anew for every task.

* **`ExecutionGraph.addLaunch`** — the attempt of a launch;
* **`Speculation.considerAtOnce`**, **`Speculation.considerAllAtOnce`**,
  **`Speculation.reactAtOnce`** — the round that adds each attempt at once;
* **`Speculation.candidate?_push`** — an attempt of another task leaves a task as it is;
* **`Speculation.InStep`** — both rounds have come equally far, kept by every task;
* **`Speculation.reactAtOnce_eq_map_react`** — both rounds end in the same way. -/

namespace AdaptiveBatch

open ExecutionGraph

variable {s : Speculation} {g : ExecutionGraph} {around : Surroundings} {key : TaskKey}
  {round : SpeculationRound}

/-- The identity of the first attempt of a task. -/
def TaskKey.firstAttempt (key : TaskKey) : AttemptId where
  vertex := key.vertex
  subtask := key.subtask
  generation := key.generation
  number := 0

/-- Adds the attempt of a launch to its task. -/
def ExecutionGraph.addLaunch (g : ExecutionGraph) (now : Instant) (l : Launch) :
    Except ExecutionError ExecutionGraph :=
  (·.2) <$> g.addAttempt l.task.vertex l.task.subtask l.node true now

/-! ## The round that adds each attempt at once -/

/-- The tasks that were considered so far, and the graph with the attempts of those that got a
node. -/
structure ImmediateRound extends SpeculationRound where
  /-- The graph with the new attempts. -/
  graph : ExecutionGraph

namespace Speculation

/-- The node for one more attempt of a task, by the attempts of the graph. -/
def nodeAtOnce? (s : Speculation) (around : Surroundings) (g : ExecutionGraph) (vertex : VertexId)
    (t : Task) : Option NodeId :=
  selectNode (nodeLoads around.view g.nodeCounts (g.vertexNodeCounts vertex) around.slow around.now)
    { mode := s.mode, avoid := t.activeNodes }

/-- Considers one task, and adds its attempt to the graph. -/
def considerAtOnce (s : Speculation) (around : Surroundings) (round : ImmediateRound)
    (key : TaskKey) : Except ExecutionError ImmediateRound :=
  match s.candidate? round.graph key with
  | none => .ok round
  | some t =>
    match s.nodeAtOnce? around round.graph key.vertex t with
    | none => .ok { round with deferred := round.deferred ++ [key] }
    | some node => do
      let launch : Launch := { task := key, node }
      let graph ← round.graph.addLaunch around.now launch
      .ok { round with launches := round.launches ++ [launch], graph }

/-- Considers tasks in their order, from the graph as it is. -/
def considerAllAtOnce (s : Speculation) (around : Surroundings) (keys : List TaskKey) :
    Except ExecutionError ImmediateRound :=
  keys.foldlM (s.considerAtOnce around) { graph := around.graph }

/-- Blocks the nodes of slow attempts and considers their tasks, and the deferred ones, each with
the attempts that were added before it. -/
def reactAtOnce (s : Speculation) (slow : List SlowAttempt) (around : Surroundings) :
    Checked (Except ExecutionError (List Launch × Speculation × SlowNodes)) := do
  let registry ←
    around.slow.blockAll (slow.map (·.node)) around.now s.settings.blockSlowNodeDuration
  pure do
    let round ← s.considerAllAtOnce { around with slow := registry } (s.keys slow)
    pure (round.launches, { s with deferred := round.deferred }, registry)

/-! ## One more attempt -/

/-- A task is found by any identity of its attempts, so by `key.firstAttempt`, that of the first
one. -/
theorem candidate?_eq_filter : s.candidate? g key = (g.taskOf? key.firstAttempt).filter fun t =>
    !t.isFinished && decide (t.activeCount < s.settings.maxConcurrentExecutions) := by
  unfold candidate? taskOf? TaskKey.firstAttempt
  cases g.get? key.vertex with
  | none => rfl
  | some v => by_cases hgen : v.generation = key.generation <;> simp [hgen]

/-- An attempt of another task leaves `candidate?` of a task as it is. -/
theorem candidate?_push {a : Attempt} (hnext : g.IsNext a.id) (hne : key ≠ .ofAttempt a.id) :
    s.candidate? (g.push a) key = s.candidate? g key := by
  have htask : (g.push a).taskOf? key.firstAttempt = g.taskOf? key.firstAttempt := by
    rw [push, taskOf?_modifyTask]
    split
    · next hplace =>
      -- In this place there are only tasks of another generation.
      obtain ⟨t, ht, -⟩ := hnext
      have hnone : g.taskOf? key.firstAttempt = none := by
        rw [Option.eq_none_iff_forall_ne_some]
        intro t' ht'
        obtain ⟨-, hgen⟩ := taskOf?_unique ht ht' hplace
        exact hne (TaskKey.ext hplace.1.symm hplace.2.symm hgen.symm)
      rw [hnone]
      rfl
    · rfl
  rw [candidate?_eq_filter, candidate?_eq_filter, htask]

/-- The attempt of a launch can be added to a task that may get one more: `addLaunch` succeeds with
the next attempt of the task. -/
theorem exists_addLaunch {t : Task} (h : s.candidate? g key = some t) (now : Instant)
    (node : NodeId) : ∃ a, g.addLaunch now { task := key, node } = .ok (g.push a) ∧ g.IsNext a.id ∧
      .ofAttempt a.id = key ∧ a.node = node ∧ a.isActive = true := by
  obtain ⟨v, hv, hgen, ht, -⟩ := candidate?_eq_some_iff.1 h
  refine ⟨{ id := { key.firstAttempt with number := t.attempts.length }
            node, speculative := true, createdAt := now }, ?_, ?_, rfl, rfl, rfl⟩
  · unfold addLaunch addAttempt
    simp only [hv, ht, hgen]
    rfl
  · exact ⟨t, taskOf?_eq_some_iff.2 ⟨v, hv, hgen, ht⟩, rfl⟩

/-! ## Both rounds -/

/-- The round that adds its attempts has come as far as the one that counts its launches: its graph
has the attempts that the other one counts, and the tasks to come are as they were. -/
structure InStep (s : Speculation) (around : Surroundings) (round : SpeculationRound)
    (rest : List TaskKey) (g : ExecutionGraph) : Prop where
  /-- The launches are attempts on their nodes. -/
  all : ∀ node, g.nodeCounts.on node =
    around.graph.nodeCounts.on node + (round.launches.map (·.node)).count node
  /-- They are attempts of their vertices there. -/
  own : ∀ vertex node, (g.vertexNodeCounts vertex).on node =
    (around.graph.vertexNodeCounts vertex).on node + launchesOn round.launches vertex node
  /-- A task that is to come may get one more attempt if it might before. -/
  candidate : ∀ key ∈ rest, s.candidate? g key = s.candidate? around.graph key

/-- At the beginning both rounds are in step: nothing is launched, and the graph is that of the
surroundings. -/
theorem inStep_nil (s : Speculation) (around : Surroundings) (keys : List TaskKey) :
    s.InStep around {} keys around.graph :=
  ⟨fun _ => rfl, fun _ _ => rfl, fun _ _ => rfl⟩

/-- Both rounds choose the same node: `nodeAtOnce?` on the grown graph is `nodeFor?` with the
launches. -/
theorem InStep.nodeAtOnce?_eq {rest : List TaskKey} (h : s.InStep around round rest g) (t : Task) :
    s.nodeAtOnce? around g key.vertex t = s.nodeFor? around round.launches key t := by
  unfold nodeAtOnce? nodeFor?
  congr 1
  refine nodeLoads_congr (fun node => ?_) fun node => ?_
  · rw [h.all, NodeCounts.on_addAll]
  · rw [h.own, NodeCounts.on_addAll, count_nodes_of_vertex]

/-- One more launch of the round that counts is one more attempt `a` of the other one. -/
theorem InStep.push {rest : List TaskKey} {a : Attempt} (h : s.InStep around round (key :: rest) g)
    (hkey : key ∉ rest) (hnext : g.IsNext a.id) (htask : .ofAttempt a.id = key)
    (hactive : a.isActive = true) :
    s.InStep around
      { round with launches := round.launches ++ [{ task := key, node := a.node }] } rest
      (g.push a) where
  all node := by
    rw [on_nodeCounts_push hnext, h.all, List.map_append, List.count_append, Nat.add_assoc]
    simp [hactive, List.count_singleton]
  own vertex node := by
    rw [on_vertexNodeCounts_push hnext, h.own, launchesOn_concat, Nat.add_assoc, ← htask]
    simp only [hactive, true_and]
    rfl
  candidate other hother := by
    have hne : other ≠ .ofAttempt a.id := by
      rintro rfl
      exact hkey (htask ▸ hother)
    rw [candidate?_push hnext hne]
    exact h.candidate other (List.mem_cons_of_mem _ hother)

/-- What one round makes of the task `key`, the other one makes of it, and they stay in step. -/
theorem InStep.considered {rest : List TaskKey} {next : SpeculationRound}
    (h : s.InStep around round (key :: rest) g) (hkey : key ∉ rest)
    (hnext : s.Considered around round key next) : ∃ g',
      s.considerAtOnce around { round with graph := g } key = .ok { next with graph := g' } ∧
        s.InStep around next rest g' := by
  have hcandidate := h.candidate key List.mem_cons_self
  have hlater := fun other hother => h.candidate other (List.mem_cons_of_mem key hother)
  unfold considerAtOnce
  simp only [hcandidate, h.nodeAtOnce?_eq]
  cases hnext with
  | skipped ht =>
    simp only [ht]
    exact ⟨g, rfl, h.all, h.own, hlater⟩
  | deferred ht hnode =>
    simp only [ht, hnode]
    exact ⟨g, rfl, h.all, h.own, hlater⟩
  | @launched t node ht hnode =>
    obtain ⟨a, hadd, hnew, htask, rfl, hactive⟩ :=
      exists_addLaunch (hcandidate.trans ht) around.now node
    simp only [ht, hnode, hadd]
    exact ⟨g.push a, rfl, h.push hkey hnew htask hactive⟩

/-- Any number of different tasks `keys` are considered by both rounds with the same end. -/
theorem InStep.considerAll {keys : List TaskKey} (h : s.InStep around round keys g)
    (hnodup : keys.Nodup) : ∃ g', keys.foldlM (s.considerAtOnce around) { round with graph := g } =
      .ok { keys.foldl (s.consider around) round with graph := g' } := by
  induction keys generalizing round g with
  | nil => exact ⟨g, rfl⟩
  | cons key rest ih =>
    obtain ⟨hkey, hnodup⟩ := List.nodup_cons.1 hnodup
    obtain ⟨g₁, hfirst, hstep⟩ := h.considered hkey (s.considered around round key)
    obtain ⟨g₂, hrest⟩ := ih hstep hnodup
    refine ⟨g₂, ?_⟩
    rw [List.foldlM_cons, hfirst]
    exact hrest

/-- **A round may count its launches instead of adding them.** Take any deferred tasks, any slow
attempts, any graph, slots, blocks and time, and either mode of balance. The round that adds the
attempt of each launch at once (`reactAtOnce`), and counts the attempts of the graph anew for every
task, never has an attempt refused by the graph. It fails in the same cases as the round that leaves
the graph as it is (`react`), namely when a block would end beyond the end of the clock, and
otherwise both have the same launches in the same order, the same deferred tasks and the same
blocked nodes. -/
theorem reactAtOnce_eq_map_react (s : Speculation) (slow : List SlowAttempt)
    (around : Surroundings) (henabled : s.settings.enabled = true) :
    s.reactAtOnce slow around = (s.react slow around).map Except.ok := by
  unfold reactAtOnce react
  rw [if_pos henabled]
  cases around.slow.blockAll (slow.map (·.node)) around.now s.settings.blockSlowNodeDuration with
  | error o => rfl
  | ok registry =>
    obtain ⟨g, hround⟩ := (s.inStep_nil { around with slow := registry } (s.keys slow)).considerAll
      (s.nodup_keys slow)
    show Except.ok (s.considerAllAtOnce _ _ >>= _) = _
    rw [considerAllAtOnce, hround]
    rfl

/-- A task of one vertex and three of another one on a node, and two other nodes with one slot
each. -/
def sampleCrowd : Surroundings where
  graph := ExecutionGraph.run ∅
    [(.origin, .startGeneration "m" 1), (.origin, .addAttempt "m" 0 "a" false),
      (.origin, .startGeneration "r" 3), (.origin, .addAttempt "r" 0 "a" false),
      (.origin, .addAttempt "r" 1 "a" false), (.origin, .addAttempt "r" 2 "a" false)]
  view := (((∅ : ResourceView).addNode "a" 3 1 0).addNode "b" 1 1 0).addNode "c" 1 1 0
  slow := ∅
  now := .origin

/-- Nodes with few attempts come first, and one task waits for a node. -/
def sampleBalancing : Speculation where
  settings := { enabled := true }
  mode := .tasks
  deferred := [⟨"r", 1, 1⟩]

/-- The attempts of the other tasks are slow. -/
def sampleStragglers : List SlowAttempt :=
  [("r", 2), ("r", 0), ("m", 0)].map fun (vertex, subtask) =>
    { id := ⟨vertex, subtask, 1, 0⟩
      node := "a"
      elapsed := .ofSeconds 90
      threshold := .ofSeconds 60 }

/-- The launch of the vertex `"m"` makes the other node the better one for `"r"`, whose own launches
then fill both nodes. -/
theorem reactAtOnce_eq_map_react_sample :
    sampleBalancing.settings.enabled = true ∧
    sampleBalancing.reactAtOnce sampleStragglers sampleCrowd =
      (sampleBalancing.react sampleStragglers sampleCrowd).map Except.ok ∧
    (sampleBalancing.react sampleStragglers sampleCrowd).map (fun r => (r.1, r.2.1.deferred)) =
      .ok ([⟨⟨"m", 0, 1⟩, "b"⟩, ⟨⟨"r", 0, 1⟩, "c"⟩, ⟨⟨"r", 1, 1⟩, "b"⟩],
        [⟨"r", 2, 1⟩]) := by
  refine ⟨rfl, reactAtOnce_eq_map_react _ _ _ rfl, ?_⟩
  cbv

end Speculation

end AdaptiveBatch
