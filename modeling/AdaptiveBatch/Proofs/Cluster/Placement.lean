import AdaptiveBatch.Cluster.Placement

/-! # Nodes with room

A node may be chosen for a vertex when it is in the view, is not blocked, and has a slot without an
attempt of the vertex. The ranked nodes are those nodes, so a chosen node is one of them, and as
long as there is one, one is chosen.

* **`ResourceView.HasRoom`**, **`mem_rankNodes_iff`** — the nodes that may be chosen;
* **`selectNode_nodeLoads`**, **`selectNode_nodeLoads_eq_none_iff`** — a chosen node, and when there
  is none. -/

namespace AdaptiveBatch

variable {view : ResourceView} {active own : NodeCounts} {slow : SlowNodes} {now : Instant}
  {r : PlacementRequest} {node : NodeId}

/-! ## Loads -/

/-- The occupancy of one node. -/
def nodeLoad (view : ResourceView) (active own : NodeCounts) (slow : SlowNodes) (now : Instant)
    (node : NodeId) : NodeLoad where
  node := node
  slots := view.slotsOn node
  activeAttempts := active.on node
  vertexAttempts := own.on node
  blocked := slow.isBlocked node now

/-- The loads are computed node by node: `nodeLoads` maps `nodeLoad` over `view.nodes`. -/
theorem nodeLoads_eq_map : nodeLoads view active own slow now =
    view.nodes.map (nodeLoad view active own slow now) := by
  rw [nodeLoads, ResourceView.slotsPerNode_eq, List.map_map]
  rfl

/-- Counts by node are only read node by node: where `on` agrees, so do the `nodeLoads`. -/
theorem nodeLoads_congr {active' own' : NodeCounts}
    (hactive : ∀ node, active.on node = active'.on node)
    (hown : ∀ node, own.on node = own'.on node) :
    nodeLoads view active own slow now = nodeLoads view active' own' slow now := by
  unfold nodeLoads
  simp only [hactive, hown]

/-- The node may be chosen for a vertex: it is in the view and not blocked, and has more slots than
attempts of the vertex. -/
structure ResourceView.HasRoom (view : ResourceView) (own : NodeCounts) (slow : SlowNodes)
    (now : Instant) (node : NodeId) : Prop where
  /-- It is in the view. -/
  mem_nodes : node ∈ view.nodes
  /-- It is not blocked. -/
  not_blocked : slow.isBlocked node now = false
  /-- It has a slot without an attempt of the vertex. -/
  count_lt : own.on node < view.slotsOn node

/-- A node of the view is eligible iff it has room for one more attempt of the vertex,
`view.HasRoom`. -/
theorem eligible_nodeLoad_iff (hnode : node ∈ view.nodes) :
    (nodeLoad view active own slow now node).eligible = true ↔ view.HasRoom own slow now node := by
  rw [NodeLoad.eligible, Bool.and_eq_true, Bool.not_eq_true', decide_eq_true_eq]
  exact ⟨fun h => ⟨hnode, h.1, Nat.lt_of_sub_pos h.2⟩,
    fun h => ⟨h.not_blocked, Nat.sub_pos_of_lt h.count_lt⟩⟩

/-! ## Choices -/

/-- The ranked nodes are exactly those that have room, `view.HasRoom`. -/
theorem mem_rankNodes_iff :
    node ∈ (rankNodes (nodeLoads view active own slow now) r).map (·.node) ↔
      view.HasRoom own slow now node := by
  rw [rankNodes, nodeLoads_eq_map]
  simp only [List.mem_map, List.mem_mergeSort, List.mem_filter]
  constructor
  · rintro ⟨_, ⟨⟨other, hother, rfl⟩, heligible⟩, rfl⟩
    exact (eligible_nodeLoad_iff hother).1 heligible
  · intro h
    exact ⟨_, ⟨⟨node, h.mem_nodes, rfl⟩, (eligible_nodeLoad_iff h.mem_nodes).2 h⟩, rfl⟩

/-- A chosen node has room, `view.HasRoom`. -/
theorem selectNode_nodeLoads (h : selectNode (nodeLoads view active own slow now) r = some node) :
    view.HasRoom own slow now node := by
  rw [selectNode, ← List.head?_map] at h
  exact mem_rankNodes_iff.1 (List.mem_of_mem_head? h)

/-- No node is chosen exactly when none has room: each one that is not blocked has its `slotsOn`
taken by attempts of the vertex. -/
theorem selectNode_nodeLoads_eq_none_iff :
    selectNode (nodeLoads view active own slow now) r = none ↔
      ∀ node ∈ view.nodes, slow.isBlocked node now = false → view.slotsOn node ≤ own.on node := by
  rw [selectNode, ← List.head?_map, List.head?_eq_none_iff, List.eq_nil_iff_forall_not_mem]
  simp only [mem_rankNodes_iff]
  constructor
  · intro h node hnode hfree
    exact Nat.not_lt.1 fun hlt => h node ⟨hnode, hfree, hlt⟩
  · intro h node hroom
    exact Nat.not_lt.2 (h node hroom.mem_nodes hroom.not_blocked) hroom.count_lt

end AdaptiveBatch
