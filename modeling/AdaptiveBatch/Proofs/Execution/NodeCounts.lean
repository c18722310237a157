import AdaptiveBatch.Proofs.Cluster.Nodes
import AdaptiveBatch.Proofs.Execution.Reports

/-! # Attempts by node

The attempts that a node hosts are those of one vertex and those of the others, so a change to one
vertex changes both counts of a node alike.

* **`ExecutionGraph.total_vertexNodeCounts`** — the attempts of a vertex on all nodes;
* **`ExecutionGraph.without`** — the graph without a vertex;
* **`ExecutionGraph.on_nodeCounts_eq_add`** — the attempts of one vertex and those of the others;
* **`ExecutionGraph.on_nodeCounts_push`** — one more attempt counts on its node if it holds a
  slot. -/

namespace AdaptiveBatch.ExecutionGraph

variable {g : ExecutionGraph} {vertex : VertexId} {v : VertexExecution}

/-- The attempts of a vertex on all nodes are its `activeAttempts`: the `total` of its counts is
their number. -/
theorem total_vertexNodeCounts (g : ExecutionGraph) (vertex : VertexId) :
    (g.vertexNodeCounts vertex).total =
      ((g.get? vertex).elim [] VertexExecution.activeAttempts).length := by
  rw [vertexNodeCounts, NodeCounts.total_ofNodes, List.length_map]

/-- The graph without a vertex. -/
def without (g : ExecutionGraph) (vertex : VertexId) : ExecutionGraph := ⟨g.vertices.erase vertex⟩

/-- The graph `g.without vertex` has all generations of `g` but that of `vertex`. -/
theorem get?_without (g : ExecutionGraph) (vertex other : VertexId) :
    (g.without vertex).get? other = if vertex = other then none else g.get? other := by
  show (g.vertices.erase vertex)[other]? = _
  rw [Std.ExtTreeMap.getElem?_erase]
  simp only [Std.LawfulEqCmp.compare_eq_iff_eq]
  rfl

/-- The entries of a graph are that of one vertex, `(vertex, v)`, and those of the others. -/
theorem perm_entries (hv : g.get? vertex = some v) :
    g.vertices.toList.Perm ((vertex, v) :: (g.without vertex).vertices.toList) := by
  have hentry {m : ExecutionGraph} {p : VertexId × VertexExecution} :
      p ∈ m.vertices.toList ↔ m.get? p.1 = some p.2 :=
    Std.ExtTreeMap.mem_toList_iff_getElem?_eq_some
  have hnodup (m : ExecutionGraph) : m.vertices.toList.Nodup := by
    rw [List.nodup_iff_pairwise_ne]
    refine Std.ExtTreeMap.distinct_keys_toList.imp fun hne heq => ?_
    exact hne (Std.LawfulEqCmp.compare_eq_iff_eq.2 (congrArg Prod.fst heq))
  refine (List.perm_ext_iff_of_nodup (hnodup g) (List.nodup_cons.2 ⟨?_, hnodup _⟩)).2 ?_
  · rw [hentry, get?_without, if_pos rfl]
    exact Option.some_ne_none _ ∘ Eq.symm
  · rintro ⟨other, w⟩
    rw [List.mem_cons, hentry, hentry, get?_without, Prod.mk.injEq]
    dsimp only
    by_cases heq : vertex = other
    · subst heq
      rw [hv, if_pos rfl]
      simp [eq_comm]
    · simp [heq, eq_comm]

/-- The attempts on a node are those of one vertex, `g.vertexNodeCounts vertex`, and those of the
others. -/
theorem on_nodeCounts_eq_add (g : ExecutionGraph) (vertex : VertexId) (node : NodeId) :
    g.nodeCounts.on node =
      (g.vertexNodeCounts vertex).on node + (g.without vertex).nodeCounts.on node := by
  cases hv : g.get? vertex with
  | none =>
    have hwithout : g.without vertex = g := by
      refine ext_get? fun other => ?_
      rw [get?_without]
      split
      · next heq => rw [← heq, hv]
      · rfl
    rw [hwithout, vertexNodeCounts, hv, NodeCounts.on_ofNodes]
    exact (Nat.zero_add _).symm
  | some v =>
    unfold nodeCounts vertexNodeCounts toList
    rw [hv, NodeCounts.on_ofNodes, NodeCounts.on_ofNodes, NodeCounts.on_ofNodes,
      ((((perm_entries hv).map (·.2)).flatMap_right _).map _).count_eq, List.map_cons,
      List.flatMap_cons, List.map_append, List.count_append]
    rfl

/-- One more attempt counts on its node, `a.node`, if it holds a slot. -/
theorem on_nodeCounts_push {a : Attempt} (h : g.IsNext a.id) (node : NodeId) :
    (g.push a).nodeCounts.on node =
      g.nodeCounts.on node + if a.isActive = true ∧ a.node = node then 1 else 0 := by
  have hothers : (g.push a).without a.id.vertex = g.without a.id.vertex := by
    refine ext_get? fun other => ?_
    rw [get?_without, get?_without, push, get?_modifyTask]
    split <;> rfl
  rw [on_nodeCounts_eq_add _ a.id.vertex, on_nodeCounts_eq_add g a.id.vertex, hothers,
    on_vertexNodeCounts_push h]
  simp only [true_and]
  omega

end AdaptiveBatch.ExecutionGraph
