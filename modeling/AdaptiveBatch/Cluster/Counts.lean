import Std.Data.ExtTreeMap

/-! # Counts by node

* **`NodeId`**, **`NodeCounts`** — the nodes of a cluster, and how many of something each of them
  has;
* **`NodeCounts.ofNodes`** — the counts of a list of nodes. -/

namespace AdaptiveBatch

/-- The name of a node. -/
abbrev NodeId := String

/-- How many of something each node has: slots, or attempts that it hosts. -/
abbrev NodeCounts := Std.ExtTreeMap NodeId Nat

namespace NodeCounts

/-- How many a node has. -/
def on (counts : NodeCounts) (node : NodeId) : Nat := counts.getD node 0

/-- The counts with one more on a node. -/
def bump (counts : NodeCounts) (node : NodeId) : NodeCounts :=
  counts.insert node (counts.on node + 1)

/-- The counts with one more for each node of a list. -/
def addAll (counts : NodeCounts) (nodes : List NodeId) : NodeCounts := nodes.foldl bump counts

/-- The counts of a list of nodes, one for each occurrence. -/
def ofNodes (nodes : List NodeId) : NodeCounts := addAll ∅ nodes

/-- After `counts.bump node` the count of `node` is one higher and every other count is as
before. -/
theorem on_bump (counts : NodeCounts) (node other : NodeId) :
    (counts.bump node).on other = counts.on other + if node = other then 1 else 0 := by
  unfold bump on
  rw [Std.ExtTreeMap.getD_insert]
  by_cases h : node = other
  · subst h; simp
  · simp [h, Std.LawfulEqCmp.compare_eq_iff_eq]

/-- Nothing is counted in `∅`. -/
theorem on_empty (node : NodeId) : (∅ : NodeCounts).on node = 0 := by
  simp [on]

/-- Adding a list of nodes raises the count of `node` by its number of occurrences,
`nodes.count node`. -/
theorem on_addAll (counts : NodeCounts) (nodes : List NodeId) (node : NodeId) :
    (counts.addAll nodes).on node = counts.on node + nodes.count node := by
  unfold addAll
  induction nodes generalizing counts with
  | nil => simp
  | cons first rest ih =>
    rw [List.foldl_cons, ih, on_bump, List.count_cons]
    simp only [beq_iff_eq]
    omega

/-- The counts of a list are its multiplicities: `(ofNodes nodes).on node = nodes.count node`. -/
theorem on_ofNodes (nodes : List NodeId) (node : NodeId) :
    (ofNodes nodes).on node = nodes.count node := by
  rw [ofNodes, on_addAll, on_empty, Nat.zero_add]

end NodeCounts

end AdaptiveBatch
