import AdaptiveBatch.Proofs.Job.Cycles
import AdaptiveBatch.Numeric.Word

/-! # Which of the waiting vertices comes next

Vertices wait in a queue from the moment the last of their producers is emitted. The one that has
waited longest is emitted first, and of those that one emission has released together, the one that
is declared first. So the order of declaration breaks no other ties: a vertex that is declared
earlier, but was released later, still comes later.

* **`JobGraph.Waiting`**, **`JobGraph.readyAt`**, **`JobGraph.Before`** — the vertices to choose
  from, and how they are compared;
* **`JobGraph.pairwise_emit`** — emitted and queued vertices stand in this order;
* **`JobGraph.emitted_longest_waiting`** — each vertex of the order is the first of the waiting;
* **`JobGraph.earlier_declared_waits`** — it need not be the one that is declared first. -/

namespace AdaptiveBatch.JobGraph

variable {g : JobGraph} {emitted queue order : List JobVertex} {v w : JobVertex}

/-! ## Waiting -/

/-- A vertex that has not been emitted although all of its producers have. -/
def Waiting (g : JobGraph) (emitted : List JobVertex) (v : JobVertex) : Prop :=
  v ∈ g.vertices ∧ v ∉ emitted ∧ ∀ p ∈ g.producersOf v.id, p ∈ emitted.map (·.id)

/-- The number of vertices up to the last producer of a vertex. -/
def readyAt (g : JobGraph) (order : List JobVertex) (v : JobVertex) : Nat :=
  largest ((g.producersOf v.id).map fun p => position order p + 1)

/-- One vertex is ready before another one, or together with it and is declared first. -/
def Before (g : JobGraph) (order : List JobVertex) (v w : JobVertex) : Prop :=
  g.readyAt order v < g.readyAt order w ∨
    g.readyAt order v = g.readyAt order w ∧
      position g.vertices v.id < position g.vertices w.id

/-- When all producers are emitted, what comes later as `rest` does not count for `readyAt`. -/
theorem readyAt_append {rest : List JobVertex}
    (h : ∀ p ∈ g.producersOf v.id, p ∈ emitted.map (·.id)) :
    g.readyAt (emitted ++ rest) v = g.readyAt emitted v := by
  unfold readyAt
  rw [List.map_congr_left fun p hp => by rw [position_append_of_mem (h p hp)]]

/-- A vertex whose producers are emitted was ready with one of the emissions so far. -/
theorem readyAt_le_length (h : ∀ p ∈ g.producersOf v.id, p ∈ emitted.map (·.id)) :
    g.readyAt emitted v ≤ emitted.length :=
  largest_le_iff.2 (List.forall_mem_map.2 fun p hp => position_lt_length (h p hp))

/-- A released vertex `w` is ready with the emission of its last producer, `v`. -/
theorem readyAt_released (hv : v.id ∉ emitted.map (·.id))
    (hw : w ∈ g.released (emitted ++ [v]) v) : g.readyAt (emitted ++ [v]) w = emitted.length + 1 := by
  obtain ⟨-, hfeeds, hall⟩ := mem_released_iff.1 hw
  apply Nat.le_antisymm
  · have hle := readyAt_le_length hall
    rwa [List.length_append, List.length_singleton] at hle
  · apply le_largest
    refine List.mem_map.2 ⟨v.id, mem_producersOf_iff.2 hfeeds, ?_⟩
    rw [position_concat_self hv]

/-- The vertices are declared one after the other: `position g.vertices` ascends along them. -/
theorem pairwise_vertices (hids : (g.vertices.map (·.id)).Nodup) :
    g.vertices.Pairwise fun v w => position g.vertices v.id < position g.vertices w.id := by
  have hnames := pairwise_position hids
  rwa [List.pairwise_map] at hnames

/-! ## The order of the queue -/

/-- Emitting the head `v` of the queue keeps the order `Before`: the vertices that it releases are
ready after all others, and stand in the order in which they are declared. -/
theorem pairwise_next (hids : (g.vertices.map (·.id)).Nodup) (h : g.Emitting emitted (v :: queue))
    (hp : (emitted ++ v :: queue).Pairwise (g.Before emitted)) :
    (emitted ++ [v] ++ (queue ++ g.released (emitted ++ [v]) v)).Pairwise
      (g.Before (emitted ++ [v])) := by
  have hsplit : emitted ++ [v] ++ (queue ++ g.released (emitted ++ [v]) v) =
      emitted ++ v :: queue ++ g.released (emitted ++ [v]) v := by
    simp
  have hready : ∀ {w}, w ∈ g.released (emitted ++ [v]) v →
      g.readyAt (emitted ++ [v]) w = emitted.length + 1 :=
    fun hw => readyAt_released h.head_notMem hw
  rw [hsplit, List.pairwise_append]
  refine ⟨?_, ?_, ?_⟩
  · refine hp.imp_of_mem fun ha hb hbefore => ?_
    rwa [Before, readyAt_append (h.producers _ ha), readyAt_append (h.producers _ hb)]
  · refine ((pairwise_vertices hids).filter _).imp_of_mem fun ha hb hdeclared => ?_
    exact .inr ⟨(hready ha).trans (hready hb).symm, hdeclared⟩
  · intro a ha b hb
    have hle := readyAt_le_length (h.producers a ha)
    refine .inl ?_
    rw [readyAt_append (h.producers a ha), hready hb]
    omega

/-- What is emitted stands in the order in which it was ready, `g.Before`, however many `steps` are
taken. -/
theorem pairwise_emit (hids : (g.vertices.map (·.id)).Nodup) (steps : Nat)
    (h : g.Emitting emitted queue) (hp : (emitted ++ queue).Pairwise (g.Before emitted)) :
    (g.emit steps emitted queue).Pairwise (g.Before (g.emit steps emitted queue)) := by
  induction steps generalizing emitted queue with
  | zero => exact (List.pairwise_append.1 hp).1
  | succ steps ih =>
    cases queue with
    | nil =>
      rw [List.append_nil] at hp
      exact hp
    | cons v queue => exact ih (h.next hids) (pairwise_next hids h hp)

/-- The whole emission stands in the order `g.Before g.emission`. -/
theorem pairwise_emission (hids : (g.vertices.map (·.id)).Nodup) :
    g.emission.Pairwise (g.Before g.emission) := by
  refine pairwise_emit hids _ (emitting_sources hids) ?_
  -- the sources wait for nothing, so they are ready together
  refine ((pairwise_vertices hids).filter _).imp_of_mem fun ha hb hdeclared => ?_
  have hready : ∀ {v}, v ∈ g.vertices.filter (fun v => g.isSource v.id) → g.readyAt [] v = 0 := by
    intro v hv
    exact Nat.le_zero.1 (readyAt_le_length ((emitting_sources hids).producers v hv))
  exact .inr ⟨(hready ha).trans (hready hb).symm, hdeclared⟩

/-! ## The next vertex -/

/-- The place of the vertex `order[k]` of the order is `k`. -/
theorem position_getElem (hids : (order.map (·.id)).Nodup) {k : Nat} (hk : k < order.length) :
    position order order[k].id = k := by
  have hk' : k < (order.map (·.id)).length := by rwa [List.length_map]
  have hget : (order.map (·.id))[k] = order[k].id := List.getElem_map _
  rw [position, ← hget, hids.idxOf_getElem]

/-- The vertex `order[k]` waits when those before it, `order.take k`, have been emitted. -/
theorem waiting_getElem (h : g.topologicalOrder = .ok order) {k : Nat} (hk : k < order.length) :
    g.Waiting (order.take k) order[k] := by
  have hnodup := nodup_topologicalOrder h
  refine ⟨(perm_topologicalOrder h).mem_iff.1 (List.getElem_mem hk), ?_, ?_⟩
  · rw [List.mem_take_iff_idxOf_lt (List.getElem_mem hk), hnodup.of_map.idxOf_getElem]
    exact Nat.lt_irrefl k
  · intro p hp
    obtain ⟨-, hids, rfl, -⟩ := topologicalOrder_eq_ok h
    have hemission := advancing_emission hids
    have hlt := hemission.earlier _ (List.getElem_mem hk) p hp
    rw [position_getElem hnodup] at hlt
    have hmem := hemission.producers _ (List.mem_append_left _ (List.getElem_mem hk)) p hp
    rw [List.map_take]
    exact (List.mem_take_iff_idxOf_lt hmem).2 hlt

/-- **The next vertex is the first of the waiting ones.** At each place `k` of the order stands a
vertex that is `Waiting` when those before it have been emitted, and of all vertices that wait then
it is the one that was ready first, and among those that were ready with the same emission the one
that is declared first (`Before`). -/
theorem emitted_longest_waiting (h : g.topologicalOrder = .ok order) {k : Nat}
    (hk : k < order.length) : g.Waiting (order.take k) order[k] ∧
      ∀ w, g.Waiting (order.take k) w → w ≠ order[k] → g.Before order order[k] w := by
  refine ⟨waiting_getElem h hk, fun w ⟨hvertex, hleft, _⟩ hne => ?_⟩
  obtain ⟨j, hj, rfl⟩ := List.getElem_of_mem ((perm_topologicalOrder h).mem_iff.2 hvertex)
  -- What waits and is not the next vertex stands behind it.
  have hkj : k < j := by
    rw [List.mem_take_iff_idxOf_lt (List.getElem_mem hj),
      (nodup_topologicalOrder h).of_map.idxOf_getElem] at hleft
    have hjk : j ≠ k := by
      rintro rfl
      exact hne rfl
    omega
  obtain ⟨-, hids, rfl, -⟩ := topologicalOrder_eq_ok h
  exact List.pairwise_iff_getElem.1 (pairwise_emission hids) k j hk hj hkj

/-- The vertex declared first is released by the first vertex of the order. -/
def sampleLate : JobGraph where
  name := "late"
  vertices := [{ id := "c" }, { id := "a" }, { id := "b" }]
  edges := [⟨"a", "c", .blocking⟩]

/-- In `sampleLate` the second vertex was ready from the start, the third one only after the
first. -/
theorem emitted_longest_waiting_sample : ∃ a b c : JobVertex,
    sampleLate.topologicalOrder = .ok [a, b, c] ∧ sampleLate.Waiting [a] b ∧
      sampleLate.Waiting [a] c ∧ sampleLate.Before [a, b, c] b c := by
  have horder : sampleLate.topologicalOrder =
      .ok [{ id := "a" }, { id := "b" }, { id := "c" }] := by
    decide +kernel
  have hwaits : sampleLate.Waiting [{ id := "a" }] { id := "c" } :=
    ⟨by decide, by decide, by decide +kernel⟩
  obtain ⟨hnext, hfirst⟩ := emitted_longest_waiting horder (k := 1) (by decide)
  exact ⟨_, _, _, horder, hnext, hwaits, hfirst _ hwaits (by decide)⟩

/-- In `sampleLate` the vertex declared first waits at the second place of the order, but comes
third. -/
theorem earlier_declared_waits : ∃ a b c : JobVertex, sampleLate.topologicalOrder = .ok [a, b, c] ∧
    sampleLate.Waiting [a] c ∧
      position sampleLate.vertices c.id < position sampleLate.vertices b.id := by
  refine ⟨{ id := "a" }, { id := "b" }, { id := "c" }, by decide +kernel, ?_, by decide +kernel⟩
  exact ⟨by decide, by decide, by decide +kernel⟩

end AdaptiveBatch.JobGraph
