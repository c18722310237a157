import AdaptiveBatch.Cluster.View
import Mathlib.Algebra.BigOperators.Group.Finset.Basic
import Mathlib.Algebra.Order.BigOperators.Group.Finset
import Mathlib.Algebra.Order.Ring.Nat

/-! # The nodes of a view

The slots of one node may be scattered over a view. The nodes are listed in the order in which they
are seen first, each once, so their slots add up to those of the view. Counts by node are made of
attempts that may sit on other nodes as well; a view whose nodes all host as many as they have slots
has at most as many slots as there are attempts.

* **`ResourceView.firstSeen`**, **`ResourceView.pairwise_nodes`** — the order of the nodes;
* **`NodeCounts.total`** — what all nodes have together, with **`NodeCounts.total_ofNodes`**;
* **`ResourceView.sum_slotsOn`**, **`ResourceView.slotCount_le_total`** — slots and counts. -/

namespace AdaptiveBatch

/-- A list without its duplicates has its elements in the order in which they first occur: `idxOf`
ascends along `eraseDups`. -/
theorem pairwise_idxOf_eraseDups {α : Type} [BEq α] [LawfulBEq α] (l : List α) :
    l.eraseDups.Pairwise fun a b => l.idxOf a < l.idxOf b := by
  induction l using List.reverseRecOn with
  | nil => exact .nil
  | append_singleton l last ih =>
    have hold {a : α} (ha : a ∈ l.eraseDups) : (l ++ [last]).idxOf a = l.idxOf a :=
      List.idxOf_append_of_mem (List.mem_eraseDups.1 ha)
    have hfront : l.eraseDups.Pairwise fun a b => (l ++ [last]).idxOf a < (l ++ [last]).idxOf b :=
      ih.imp_of_mem fun ha hb hlt => by rwa [hold ha, hold hb]
    rw [List.eraseDups_append]
    by_cases hmem : last ∈ l
    · have hnone : [last].removeAll l = [] := by simp [List.removeAll, hmem]
      rwa [hnone, List.eraseDups_nil, List.append_nil]
    · have hnew : [last].removeAll l = [last] := by simp [List.removeAll, hmem]
      rw [hnew, List.pairwise_append]
      refine ⟨hfront, List.pairwise_singleton _ _, fun a ha b hb => ?_⟩
      -- The new element is seen first behind all others.
      obtain rfl := List.mem_singleton.1 hb
      rw [hold ha, List.idxOf_append_of_notMem hmem]
      exact Nat.lt_add_right _ (List.idxOf_lt_length_of_mem (List.mem_eraseDups.1 ha))

namespace ResourceView

/-- The position of the first slot of a node. -/
def firstSeen (view : ResourceView) (node : NodeId) : Nat := (view.slots.map (·.node)).idxOf node

/-- The nodes come in the order in which they are seen first: `firstSeen` ascends along
`view.nodes`. -/
theorem pairwise_nodes (view : ResourceView) :
    view.nodes.Pairwise fun a b => view.firstSeen a < view.firstSeen b :=
  pairwise_idxOf_eraseDups _

/-- No node is listed twice in `view.nodes`. -/
theorem nodup_nodes (view : ResourceView) : view.nodes.Nodup :=
  view.pairwise_nodes.imp fun hlt heq => hlt.ne (congrArg view.firstSeen heq)

end ResourceView

/-! ## What all nodes have together -/

namespace NodeCounts

variable {counts : NodeCounts}

/-- What all nodes have together. -/
def total (counts : NodeCounts) : Nat := (counts.toList.map (·.2)).sum

/-- A node without an entry has nothing; so a node with `counts.on node ≠ 0` is among the keys. -/
theorem mem_keys_of_on_ne_zero {node : NodeId} (h : counts.on node ≠ 0) :
    node ∈ counts.keys.toFinset := by
  rw [List.mem_toFinset, Std.ExtTreeMap.mem_keys]
  by_contra hnone
  exact h (Std.ExtTreeMap.getD_eq_fallback hnone)

/-- The total of some counts is the sum of `counts.on node` over the nodes that have an entry. -/
theorem total_eq_sum_keys (counts : NodeCounts) :
    counts.total = ∑ node ∈ counts.keys.toFinset, counts.on node := by
  have hentries : counts.toList.map (·.2) = counts.keys.map counts.on := by
    rw [← Std.ExtTreeMap.map_fst_toList_eq_keys, List.map_map]
    refine List.map_congr_left fun entry hentry => ?_
    have hvalue := Std.ExtTreeMap.mem_toList_iff_getElem?_eq_some.1 hentry
    rw [Function.comp_apply, on, Std.ExtTreeMap.getD_eq_getD_getElem?, hvalue, Option.getD_some]
  rw [total, hentries, List.sum_toFinset _ Std.ExtTreeMap.nodup_keys]

/-- Some of the nodes, listed without repetition, have at most what all of them have together,
`counts.total`. -/
theorem sum_on_le_total {nodes : List NodeId} (h : nodes.Nodup) :
    (nodes.map counts.on).sum ≤ counts.total := by
  rw [← List.sum_toFinset _ h, total_eq_sum_keys]
  exact Finset.sum_le_sum_of_ne_zero fun _ _ => mem_keys_of_on_ne_zero

/-- The counts of a list of nodes add up to its length, `nodes.length`. -/
theorem total_ofNodes (nodes : List NodeId) : (ofNodes nodes).total = nodes.length := by
  have hlisted (node : NodeId) (h : (ofNodes nodes).on node ≠ 0) : node ∈ nodes.toFinset := by
    rw [on_ofNodes] at h
    exact List.mem_toFinset.2 (List.count_pos_iff.1 (Nat.pos_of_ne_zero h))
  calc (ofNodes nodes).total
    _ = ∑ node ∈ (ofNodes nodes).keys.toFinset, (ofNodes nodes).on node := total_eq_sum_keys _
    _ = ∑ node ∈ nodes.toFinset, (ofNodes nodes).on node :=
      le_antisymm (Finset.sum_le_sum_of_ne_zero fun node _ => hlisted node)
        (Finset.sum_le_sum_of_ne_zero fun _ _ => mem_keys_of_on_ne_zero)
    _ = ∑ node ∈ nodes.toFinset, nodes.count node := by simp only [on_ofNodes]
    _ = nodes.length := List.sum_toFinset_count_eq_length nodes

end NodeCounts

namespace ResourceView

/-- The slots of the nodes add up to those of the view: the sum of `slotsOn` over `nodes` is
`slotCount`. -/
theorem sum_slotsOn (view : ResourceView) :
    (view.nodes.map view.slotsOn).sum = view.slotCount := by
  have hnodes : view.nodes.toFinset = (view.slots.map (·.node)).toFinset :=
    List.toFinset.ext fun _ => List.mem_eraseDups
  rw [← List.sum_toFinset _ view.nodup_nodes, hnodes]
  simp only [slotsOn_eq_count]
  rw [List.sum_toFinset_count_eq_length, List.length_map, slotCount]

/-- Where every node has as many as it has slots, `slotsOn node ≤ counts.on node`, all nodes
together have at least `slotCount`. -/
theorem slotCount_le_total {view : ResourceView} {counts : NodeCounts}
    (h : ∀ node ∈ view.nodes, view.slotsOn node ≤ counts.on node) :
    view.slotCount ≤ counts.total :=
  calc view.slotCount
    _ = (view.nodes.map view.slotsOn).sum := view.sum_slotsOn.symm
    _ ≤ (view.nodes.map counts.on).sum := List.sum_le_sum h
    _ ≤ counts.total := NodeCounts.sum_on_le_total view.nodup_nodes

end ResourceView

end AdaptiveBatch
