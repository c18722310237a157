import AdaptiveBatch.Proofs.Cluster.Placement
import AdaptiveBatch.Proofs.Execution.NodeCounts
import AdaptiveBatch.Proofs.Execution.Operations
import Mathlib

/-! # The best node

Among the nodes that have room for a vertex, one without an attempt of the same task is better than
one with such an attempt; then, when the load balance says so, one with fewer attempts; then the one
that is seen first. The nodes are sorted by the first two only. The sort is stable and starts from
the order of the view, so the last decides as well.

* **`PlacementRequest.rank`** — what decides between two nodes;
* **`filter_ties_mergeSort`** — equally good elements of a sorted list keep their order;
* **`pairwise_rankNodes`** — the ranked nodes ascend strictly;
* **`selectNode_least_and_complete`** — which node is chosen, and when there is one. -/

namespace AdaptiveBatch

variable {view : ResourceView} {active own : NodeCounts} {slow : SlowNodes} {now : Instant}
  {r : PlacementRequest} {node : NodeId}

/-! ## Sorted lists -/

section Sorting

variable {α : Type} {le : α → α → Bool} {R : α → α → Prop} {l : List α}

/-- Whether an element is as good as another one. -/
def ties (le : α → α → Bool) (a x : α) : Bool := le a x && le x a

/-- What ties with an element `a` comes in the same order in the sorted list, `l.mergeSort le`. -/
theorem filter_ties_mergeSort (htrans : ∀ a b c, le a b = true → le b c = true → le a c = true)
    (htotal : ∀ a b, (le a b || le b a) = true) (a : α) :
    (l.mergeSort le).filter (ties le a) = l.filter (ties le a) := by
  have hties {x : α} (hx : x ∈ l.filter (ties le a)) : le a x = true ∧ le x a = true :=
    Bool.and_eq_true_iff.1 (List.mem_filter.1 hx).2
  have hascend : (l.filter (ties le a)).Pairwise fun x y => le x y = true :=
    List.pairwise_of_forall_mem_list fun x hx y hy => htrans x a y (hties hx).2 (hties hy).1
  -- The sort is stable, so it keeps a part of the list that ascends as it is.
  have hkept :=
    (List.sublist_mergeSort htrans htotal hascend List.filter_sublist).filter (ties le a)
  rw [List.filter_filter, funext fun x => Bool.and_self (ties le a x)] at hkept
  exact (hkept.eq_of_length ((List.mergeSort_perm l le).symm.filter _).length_eq).symm

/-- The elements of `l.mergeSort le` ascend, and equally good ones are related by `R` as they were
listed. -/
theorem pairwise_mergeSort_stable
    (htrans : ∀ a b c, le a b = true → le b c = true → le a c = true)
    (htotal : ∀ a b, (le a b || le b a) = true) (hR : l.Pairwise R) :
    (l.mergeSort le).Pairwise fun a b => le a b = true ∧ (le b a = true → R a b) := by
  rw [List.pairwise_iff_forall_sublist]
  intro a b hab
  have hle : le a b = true :=
    List.pairwise_iff_forall_sublist.1 (List.pairwise_mergeSort htrans htotal l) hab
  refine ⟨hle, fun hge => ?_⟩
  have hself : le a a = true := htrans a b a hle hge
  have hpair : [a, b].filter (ties le a) = [a, b] := by simp [ties, hself, hle, hge]
  have hlisted := hab.filter (ties le a)
  rw [hpair, filter_ties_mergeSort htrans htotal] at hlisted
  exact List.pairwise_iff_forall_sublist.1 (hR.filter _) hlisted

/-- The first element of a list on which `f` ascends strictly is the one whose `f` is least. -/
theorem head?_eq_some_iff_least {β : Type} [LinearOrder β] {f : α → β} {a : α}
    (h : l.Pairwise fun a b => f a < f b) : l.head? = some a ↔ a ∈ l ∧ ∀ b ∈ l, f a ≤ f b := by
  cases l with
  | nil => simp
  | cons first rest =>
    obtain ⟨hfirst, -⟩ := List.pairwise_cons.1 h
    rw [List.head?_cons, Option.some.injEq]
    constructor
    · rintro rfl
      exact ⟨List.mem_cons_self, List.forall_mem_cons.2 ⟨le_rfl, fun b hb => (hfirst b hb).le⟩⟩
    · rintro ⟨hmem, hleast⟩
      rcases List.mem_cons.1 hmem with rfl | hmem
      · rfl
      · exact absurd (hleast first List.mem_cons_self) (hfirst a hmem).not_ge

end Sorting

/-! ## Ranks -/

namespace PlacementRequest

/-- What decides between two nodes: whether they host an attempt of the same task, then the number
of their attempts if these are balanced, then where they are seen first. -/
def rank (r : PlacementRequest) (view : ResourceView) (active : NodeCounts) (node : NodeId) :
    Bool ×ₗ Nat ×ₗ Nat :=
  toLex (decide (node ∈ r.avoid),
    toLex (if r.mode = .tasks then active.on node else 0, view.firstSeen node))

/-- The order `r.prefers` is lexicographic: first `siblingRank`, then `balanceRank`. -/
theorem prefers_iff {a b : NodeLoad} : r.prefers a b = true ↔
    r.siblingRank a < r.siblingRank b ∨
      r.siblingRank a = r.siblingRank b ∧ r.balanceRank a ≤ r.balanceRank b := by
  simp [prefers]

/-- Of any two nodes `r.prefers` one to the other. -/
theorem prefers_total (r : PlacementRequest) (a b : NodeLoad) :
    (r.prefers a b || r.prefers b a) = true := by
  rw [Bool.or_eq_true, prefers_iff, prefers_iff]
  omega

/-- The order `r.prefers` is transitive. -/
theorem prefers_trans (r : PlacementRequest) (a b c : NodeLoad) (h : r.prefers a b = true)
    (h' : r.prefers b c = true) : r.prefers a c = true := by
  rw [prefers_iff] at *
  omega

end PlacementRequest

/-- The ranks compare what the nodes are sorted by, `siblingRank` and then `balanceRank`, and where
both are equal, where they are `firstSeen`. -/
theorem rank_lt_rank_iff {a b : NodeId} {la lb : NodeLoad}
    (ha : nodeLoad view active own slow now a = la)
    (hb : nodeLoad view active own slow now b = lb) :
    r.rank view active a < r.rank view active b ↔
      r.siblingRank la < r.siblingRank lb ∨ r.siblingRank la = r.siblingRank lb ∧
        (r.balanceRank la < r.balanceRank lb ∨ r.balanceRank la = r.balanceRank lb ∧
          view.firstSeen a < view.firstSeen b) := by
  have hbalance (node : NodeId) : (if r.mode = .tasks then active.on node else 0) =
      r.balanceRank (nodeLoad view active own slow now node) := by
    rw [PlacementRequest.balanceRank]
    cases r.mode <;> rfl
  subst ha hb
  rw [PlacementRequest.rank, PlacementRequest.rank, Prod.Lex.toLex_lt_toLex,
    Prod.Lex.toLex_lt_toLex, hbalance, hbalance]
  unfold PlacementRequest.siblingRank nodeLoad
  by_cases ha : a ∈ r.avoid <;> by_cases hb : b ∈ r.avoid <;> simp [ha, hb]

/-! ## The ranked nodes -/

/-- The ranked nodes ascend strictly by `r.rank`. -/
theorem pairwise_rankNodes (view : ResourceView) (active own : NodeCounts) (slow : SlowNodes)
    (now : Instant) (r : PlacementRequest) :
    ((rankNodes (nodeLoads view active own slow now) r).map (·.node)).Pairwise fun a b =>
      r.rank view active a < r.rank view active b := by
  have hseen : ((nodeLoads view active own slow now).filter NodeLoad.eligible).Pairwise
      fun a b => view.firstSeen a.node < view.firstSeen b.node := by
    rw [nodeLoads_eq_map]
    refine .filter _ (List.pairwise_map.2 ?_)
    exact view.pairwise_nodes
  have hsorted := pairwise_mergeSort_stable r.prefers_trans r.prefers_total hseen
  rw [List.pairwise_map]
  refine hsorted.imp_of_mem fun ha hb h => ?_
  -- A load is that of its node.
  have hload {l : NodeLoad} (hl : l ∈ rankNodes (nodeLoads view active own slow now) r) :
      nodeLoad view active own slow now l.node = l := by
    have hmem := (List.mem_filter.1 (List.mem_mergeSort.1 hl)).1
    rw [nodeLoads_eq_map] at hmem
    obtain ⟨node, -, rfl⟩ := List.mem_map.1 hmem
    rfl
  rw [PlacementRequest.prefers_iff, PlacementRequest.prefers_iff] at h
  rw [rank_lt_rank_iff (hload ha) (hload hb)]
  omega

/-- The chosen node is the one of least `r.rank` among those that have room. -/
theorem selectNode_eq_some_iff :
    selectNode (nodeLoads view active own slow now) r = some node ↔
      view.HasRoom own slow now node ∧ ∀ other, view.HasRoom own slow now other →
        r.rank view active node ≤ r.rank view active other := by
  rw [selectNode, ← List.head?_map,
    head?_eq_some_iff_least (pairwise_rankNodes view active own slow now r), mem_rankNodes_iff]
  simp only [mem_rankNodes_iff]

/-! ## The loads of all nodes -/

/-- The loads list the nodes of the view, in the order of `view.nodes`. -/
theorem map_node_nodeLoads : (nodeLoads view active own slow now).map (·.node) = view.nodes := by
  rw [nodeLoads_eq_map, List.map_map]
  exact List.map_id _

/-- The slots that the loads list add up to `view.slotCount`. -/
theorem sum_slots_nodeLoads :
    ((nodeLoads view active own slow now).map (·.slots)).sum = view.slotCount := by
  rw [nodeLoads_eq_map, List.map_map, ← view.sum_slotsOn]
  rfl

/-- While no node is blocked, a node is chosen for a vertex that has fewer attempts, `own.total`,
than there are slots. -/
theorem exists_selectNode (hfree : ∀ node ∈ view.nodes, slow.isBlocked node now = false)
    (hfew : own.total < view.slotCount) :
    ∃ node, selectNode (nodeLoads view active own slow now) r = some node := by
  rw [← Option.isSome_iff_exists, Option.isSome_iff_ne_none]
  intro hnone
  rw [selectNode_nodeLoads_eq_none_iff] at hnone
  exact hfew.not_ge (view.slotCount_le_total fun node hnode => hnone node hnode (hfree node hnode))

/-- **The best node is chosen, and there is one as long as slots are left.** Take any view, however
the slots of its nodes are scattered, any counts of attempts by node, also of nodes that are not in
the view or that have fewer slots than attempts, any blocks, and any request. No node is chosen
exactly when every node of the view is blocked or has at least as many attempts of the vertex as
slots. A node is chosen exactly when it `HasRoom` and its `rank` is least among those that have:
first whether it hosts an attempt of the same task, then the number of its attempts if these are
balanced, then where it is seen first. The loads list every node of the view once, and their slots
add up to `view.slotCount`. So while no node is blocked, a node is chosen whenever the attempts of
the vertex are fewer than the slots, and that is the number of its active attempts where the counts
are those of a graph. -/
theorem selectNode_least_and_complete (view : ResourceView) (active own : NodeCounts)
    (slow : SlowNodes) (now : Instant) (r : PlacementRequest) :
    (selectNode (nodeLoads view active own slow now) r = none ↔ ∀ node ∈ view.nodes,
      slow.isBlocked node now = true ∨ view.slotsOn node ≤ own.on node) ∧
    (∀ node, selectNode (nodeLoads view active own slow now) r = some node ↔
      view.HasRoom own slow now node ∧ ∀ other, view.HasRoom own slow now other →
        r.rank view active node ≤ r.rank view active other) ∧
    ((nodeLoads view active own slow now).map (·.slots)).sum = view.slotCount ∧
    ((nodeLoads view active own slow now).map (·.node)).Nodup ∧
    (∀ node, node ∈ (nodeLoads view active own slow now).map (·.node) ↔
      ∃ slot ∈ view.slots, slot.node = node) ∧
    ((∀ node ∈ view.nodes, slow.isBlocked node now = false) →
      (own.total < view.slotCount →
        ∃ node, selectNode (nodeLoads view active own slow now) r = some node) ∧
      ∀ (g : ExecutionGraph) (vertex : VertexId),
        ((g.get? vertex).elim [] VertexExecution.activeAttempts).length < view.slotCount →
          ∃ node, selectNode
            (nodeLoads view active (g.vertexNodeCounts vertex) slow now) r = some node) := by
  refine ⟨?_, fun node => selectNode_eq_some_iff, sum_slots_nodeLoads, ?_, fun node => ?_, ?_⟩
  · rw [selectNode_nodeLoads_eq_none_iff]
    refine forall₂_congr fun node _ => ?_
    rw [← Bool.not_eq_true, or_iff_not_imp_left]
  · rw [map_node_nodeLoads]
    exact view.nodup_nodes
  · rw [map_node_nodeLoads]
    exact ResourceView.mem_nodes
  · intro hfree
    refine ⟨exists_selectNode hfree, fun g vertex hfew => exists_selectNode hfree ?_⟩
    rw [g.total_vertexNodeCounts]
    exact hfew

/-- Five slots on three nodes; the slots of two nodes are scattered. -/
def sampleScattered : ResourceView := ⟨["a", "b", "a", "c", "b"].map fun node => ⟨node, 1, 0⟩⟩

/-- Four tasks of the first vertex, one of them on a node that is gone, and two of another one. -/
def samplePlaced : ExecutionGraph :=
  .run ∅ [(.origin, .startGeneration "map" 4), (.origin, .addAttempt "map" 0 "a" false),
    (.origin, .addAttempt "map" 1 "a" false), (.origin, .addAttempt "map" 2 "b" false),
    (.origin, .addAttempt "map" 3 "gone" false), (.origin, .startGeneration "reduce" 2),
    (.origin, .addAttempt "reduce" 0 "b" false), (.origin, .addAttempt "reduce" 1 "b" false)]

/-- Nodes with few attempts come first, and a task that is on the last node goes elsewhere. -/
def sampleBalanced : PlacementRequest := { mode := .tasks, avoid := ["c"] }

/-- The first node is full and the last one hosts an attempt of the same task, so `"b"`, the second
one, is chosen, although it has the most attempts. -/
theorem selectNode_least_and_complete_sample :
    (∀ node ∈ sampleScattered.nodes, (∅ : SlowNodes).isBlocked node .origin = false) ∧
    (samplePlaced.vertexNodeCounts "map").total < sampleScattered.slotCount ∧
    ((samplePlaced.get? "map").elim [] VertexExecution.activeAttempts).length <
      sampleScattered.slotCount ∧
    (∃ node, selectNode (nodeLoads sampleScattered samplePlaced.nodeCounts
      (samplePlaced.vertexNodeCounts "map") ∅ .origin) sampleBalanced = some node) ∧
    sampleScattered.HasRoom (samplePlaced.vertexNodeCounts "map") ∅ .origin "b" ∧
    ∀ other, sampleScattered.HasRoom (samplePlaced.vertexNodeCounts "map") ∅ .origin other →
      sampleBalanced.rank sampleScattered samplePlaced.nodeCounts "b" ≤
        sampleBalanced.rank sampleScattered samplePlaced.nodeCounts other := by
  have hfree : ∀ node ∈ sampleScattered.nodes, (∅ : SlowNodes).isBlocked node .origin = false :=
    fun node _ => SlowNodes.isBlocked_empty node _
  have hfew : ((samplePlaced.get? "map").elim [] VertexExecution.activeAttempts).length <
      sampleScattered.slotCount := by
    decide +kernel
  have hchosen : selectNode (nodeLoads sampleScattered samplePlaced.nodeCounts
      (samplePlaced.vertexNodeCounts "map") ∅ .origin) sampleBalanced = some "b" := by
    cbv
  obtain ⟨-, hleast, -, -, -, hcomplete⟩ := selectNode_least_and_complete sampleScattered
    samplePlaced.nodeCounts (samplePlaced.vertexNodeCounts "map") ∅ .origin sampleBalanced
  obtain ⟨hroom, hrank⟩ := (hleast "b").1 hchosen
  refine ⟨hfree, ?_, hfew, (hcomplete hfree).2 samplePlaced "map" hfew, hroom, hrank⟩
  rw [samplePlaced.total_vertexNodeCounts]
  exact hfew

end AdaptiveBatch
