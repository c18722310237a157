import AdaptiveBatch.Job.Order
import Mathlib.Data.List.Nodup
import Mathlib.Data.List.Perm.Subperm

/-! # The order of emission

Every vertex joins the queue when the last of its producers is emitted, so it joins it once: before,
that producer itself was still waiting. Hence no vertex occurs twice in the order.

* **`JobGraph.Emitting`** — the invariant of the emission;
* **`JobGraph.nodup_topologicalOrder`** — no vertex occurs twice in the order;
* **`JobGraph.perm_topologicalOrder`** — every vertex occurs in it;
* **`JobGraph.exists_source`** — a graph that has an order has a source. -/

namespace AdaptiveBatch.JobGraph

variable {g : JobGraph} {emitted queue : List JobVertex} {v : JobVertex}

/-- No name is repeated exactly when all `ids` are different and none is among those `seen`
before. -/
theorem firstRepeated?_eq_none_iff {seen ids : List VertexId} :
    firstRepeated? seen ids = none ↔ ids.Nodup ∧ ∀ id ∈ ids, id ∉ seen := by
  induction ids generalizing seen with
  | nil => simp [firstRepeated?]
  | cons id rest ih =>
    unfold firstRepeated?
    split
    · next h => simp [h]
    · next h =>
      rw [ih, List.nodup_cons, List.forall_mem_cons]
      constructor
      · rintro ⟨hnodup, hseen⟩
        refine ⟨⟨fun hmem => hseen id hmem List.mem_cons_self, hnodup⟩, h, ?_⟩
        intro x hx hmem
        exact hseen x hx (List.mem_cons_of_mem _ hmem)
      · rintro ⟨⟨hid, hnodup⟩, -, hseen⟩
        refine ⟨hnodup, ?_⟩
        intro x hx hmem
        rcases List.mem_cons.1 hmem with rfl | hmem
        · exact hid hx
        · exact hseen x hx hmem

/-- The emitted and the queued vertices are different, and their producers are emitted. -/
structure Emitting (g : JobGraph) (emitted queue : List JobVertex) : Prop where
  /-- No vertex occurs twice. -/
  nodup : ((emitted ++ queue).map (·.id)).Nodup
  /-- Their producers are emitted. -/
  producers : ∀ v ∈ emitted ++ queue, ∀ p ∈ g.producersOf v.id, p ∈ emitted.map (·.id)

/-- The head `v` of the queue has not been emitted. -/
theorem Emitting.head_notMem (h : g.Emitting emitted (v :: queue)) :
    v.id ∉ emitted.map (·.id) := by
  have hnodup := h.nodup
  rw [List.map_append, List.nodup_append] at hnodup
  exact fun hmem => hnodup.2.2 _ hmem _ (List.mem_map.2 ⟨v, List.mem_cons_self, rfl⟩) rfl

/-- A released vertex `w` was neither emitted nor queued: one of its producers, `v`, was still
queued. -/
theorem Emitting.released_notMem (h : g.Emitting emitted (v :: queue)) {w : JobVertex}
    (hw : w ∈ g.released (emitted ++ [v]) v) : w.id ∉ (emitted ++ v :: queue).map (·.id) := by
  obtain ⟨-, hcond⟩ := List.mem_filter.1 hw
  have hconsumer : w.id ∈ g.consumersOf v.id := by
    simpa using (Bool.and_eq_true_iff.1 hcond).1
  intro hmem
  obtain ⟨u, hu, hid⟩ := List.mem_map.1 hmem
  -- The vertex at the head of the queue is a producer, so it would have been emitted already.
  have hproducer : v.id ∈ g.producersOf u.id := by
    rw [hid]
    exact mem_consumersOf_iff.1 hconsumer
  exact h.head_notMem (h.producers u hu v.id hproducer)

/-- Emitting the head `v` of the queue and queueing what it releases keeps `Emitting`. -/
theorem Emitting.next (hids : (g.vertices.map (·.id)).Nodup)
    (h : g.Emitting emitted (v :: queue)) :
    g.Emitting (emitted ++ [v]) (queue ++ g.released (emitted ++ [v]) v) := by
  -- The head of the queue is emitted, and the vertices it releases stand behind all others.
  have hsplit : emitted ++ [v] ++ (queue ++ g.released (emitted ++ [v]) v) =
      emitted ++ v :: queue ++ g.released (emitted ++ [v]) v := by
    simp
  constructor
  · rw [hsplit, List.map_append, List.nodup_append]
    refine ⟨h.nodup, hids.sublist (List.filter_sublist.map _), ?_⟩
    rintro a ha b hb rfl
    obtain ⟨w, hw, rfl⟩ := List.mem_map.1 hb
    exact h.released_notMem hw ha
  · intro w hw p hp
    rw [hsplit] at hw
    rcases List.mem_append.1 hw with hold | hnew
    · rw [List.map_append]
      exact List.mem_append_left _ (h.producers w hold p hp)
    · have hall := (Bool.and_eq_true_iff.1 (List.mem_filter.1 hnew).2).2
      exact of_decide_eq_true (List.all_eq_true.1 hall p hp)

/-- However many `steps` the emission takes, no vertex is emitted twice. -/
theorem nodup_emit (hids : (g.vertices.map (·.id)).Nodup) (steps : Nat)
    (h : g.Emitting emitted queue) : ((g.emit steps emitted queue).map (·.id)).Nodup := by
  induction steps generalizing emitted queue with
  | zero =>
    have hnodup := h.nodup
    rw [List.map_append, List.nodup_append] at hnodup
    exact hnodup.1
  | succ steps ih =>
    cases queue with
    | nil =>
      -- Nothing is left to emit, so the emission ends with what there is.
      have hnodup := h.nodup
      rw [List.append_nil] at hnodup
      exact hnodup
    | cons v queue => exact ih (h.next hids)

/-- The sources are what the emission starts with, and nothing is emitted before:
`g.Emitting []`. -/
theorem emitting_sources (hids : (g.vertices.map (·.id)).Nodup) :
    g.Emitting [] (g.vertices.filter fun v => g.isSource v.id) := by
  refine ⟨hids.sublist (List.filter_sublist.map _), ?_⟩
  intro v hv p hp
  have hsource : g.inputsOf v.id = [] := by
    simpa [isSource] using (List.mem_filter.1 hv).2
  rw [producersOf, hsource] at hp
  exact absurd hp List.not_mem_nil

/-- What an order tells about its graph: there are vertices, their names differ, and the order is
`g.emission`, which is complete. -/
theorem topologicalOrder_eq_ok {order : List JobVertex} (h : g.topologicalOrder = .ok order) :
    g.vertices ≠ [] ∧ (g.vertices.map (·.id)).Nodup ∧ order = g.emission ∧
      g.emission.length = g.vertices.length := by
  unfold topologicalOrder at h
  split at h
  · cases h
  · next hne =>
    cases hrepeated : firstRepeated? [] (g.vertices.map (·.id)) with
    | some id => rw [hrepeated] at h; cases h
    | none =>
      rw [hrepeated] at h
      cases hedge : g.edges.findSome? g.edgeError? with
      | some e => rw [hedge] at h; cases h
      | none =>
        simp only [hedge] at h
        split at h
        · next hlength =>
          cases h
          exact ⟨hne, (firstRepeated?_eq_none_iff.1 hrepeated).1, rfl, hlength⟩
        · cases h

/-- The edges of a graph that has an order are sound by themselves: `edgeError?` finds no defect. -/
theorem edgeError?_eq_none {order : List JobVertex} (h : g.topologicalOrder = .ok order)
    {e : JobEdge} (he : e ∈ g.edges) : g.edgeError? e = none := by
  unfold topologicalOrder at h
  split at h
  · cases h
  · split at h
    · cases h
    · split at h
      · cases h
      · next hedges => exact List.findSome?_eq_none_iff.1 hedges e he

/-- No vertex occurs twice in the `order`. -/
theorem nodup_topologicalOrder {order : List JobVertex} (h : g.topologicalOrder = .ok order) :
    (order.map (·.id)).Nodup := by
  obtain ⟨-, hids, rfl, -⟩ := topologicalOrder_eq_ok h
  exact nodup_emit hids _ (emitting_sources hids)

/-- Only vertices of the graph are emitted, if only such vertices are `emitted` and queued
before. -/
theorem emit_subset (steps : Nat) (h : emitted ++ queue ⊆ g.vertices) :
    g.emit steps emitted queue ⊆ g.vertices := by
  induction steps generalizing emitted queue with
  | zero => exact List.Subset.trans (List.subset_append_left emitted queue) h
  | succ steps ih =>
    cases queue with
    | nil => exact List.Subset.trans (List.subset_append_left emitted []) h
    | cons v queue =>
      -- The released vertices are vertices of the graph, and the others were there before.
      have hrest : emitted ++ [v] ++ queue ⊆ g.vertices := by simpa using h
      have hnext : emitted ++ [v] ++ (queue ++ g.released (emitted ++ [v]) v) ⊆ g.vertices := by
        rw [← List.append_assoc]
        exact List.append_subset.2 ⟨hrest, List.filter_subset_self _⟩
      exact ih hnext

/-- Every vertex of the graph occurs in the `order`, and no other: it is a permutation of
`g.vertices`. -/
theorem perm_topologicalOrder {order : List JobVertex} (h : g.topologicalOrder = .ok order) :
    order.Perm g.vertices := by
  have hnodup : order.Nodup := (nodup_topologicalOrder h).of_map
  obtain ⟨-, -, rfl, hlength⟩ := topologicalOrder_eq_ok h
  have hsubset : g.emission ⊆ g.vertices := emit_subset _ (List.filter_subset_self _)
  exact (List.subperm_of_subset hnodup hsubset).perm_of_length_le (Nat.le_of_eq hlength.symm)

/-- A vertex is found by its name: `g.get? v.id` is `v`, since names are not given twice. -/
theorem get?_eq_some (hids : (g.vertices.map (·.id)).Nodup) (hv : v ∈ g.vertices) :
    g.get? v.id = some v := by
  unfold get?
  cases hw : g.vertices.find? (·.id = v.id) with
  | none =>
    have hne := List.find?_eq_none.1 hw v hv
    simp at hne
  | some w =>
    have hid : w.id = v.id := by simpa using List.find?_some hw
    rw [List.inj_on_of_nodup_map hids (List.mem_of_find?_eq_some hw) hv hid]

/-- The vertices of the `order` are found by their names. -/
theorem get?_of_mem_order {order : List JobVertex} (h : g.topologicalOrder = .ok order)
    (hv : v ∈ order) : g.get? v.id = some v :=
  get?_eq_some (topologicalOrder_eq_ok h).2.1 ((perm_topologicalOrder h).mem_iff.1 hv)

/-- The consumer `e.target` of an edge is a vertex of the graph. -/
theorem exists_target {order : List JobVertex} (h : g.topologicalOrder = .ok order) {e : JobEdge}
    (he : e ∈ g.edges) : ∃ v, g.get? e.target = some v := by
  have hedge := edgeError?_eq_none h he
  simp only [edgeError?] at hedge
  split at hedge
  · cases hedge
  · split at hedge
    · cases hedge
    · next htarget =>
      obtain ⟨v, hv, hid⟩ := List.mem_map.1 (Decidable.not_not.1 htarget)
      exact ⟨v, hid ▸ get?_eq_some (topologicalOrder_eq_ok h).2.1 hv⟩

/-- A graph that has an order has a source: the first vertex of the `order` waits for nothing. -/
theorem exists_source {order : List JobVertex} (h : g.topologicalOrder = .ok order) :
    ∃ v ∈ g.vertices, g.isSource v.id = true := by
  obtain ⟨hne, -, rfl, hlength⟩ := topologicalOrder_eq_ok h
  by_contra hnone
  have hempty : g.vertices.filter (fun v => g.isSource v.id) = [] :=
    List.filter_eq_nil_iff.2 fun v hv hsource => hnone ⟨v, hv, hsource⟩
  -- Without a source nothing is emitted, but every vertex is.
  have hlast : g.emission = [] := by
    unfold emission
    rw [hempty]
    cases g.vertices.length <;> rfl
  rw [hlast] at hlength
  exact hne (List.length_eq_zero_iff.1 hlength.symm)

end AdaptiveBatch.JobGraph
