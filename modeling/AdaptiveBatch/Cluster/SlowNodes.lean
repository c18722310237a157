import AdaptiveBatch.Cluster.View
import AdaptiveBatch.Time.Duration
import Std.Data.ExtTreeMap

/-! # Slow nodes

Nodes that hosted a slow attempt are avoided for a while. A node has at most one entry, the end of
its latest block; an entry whose end has passed says nothing and is dropped by a purge.

* **`SlowNodes.block`**, **`SlowNodes.purge`** — the changes;
* **`SlowNodes.isBlocked`**, **`SlowNodes.blockedNodes`** — what holds at a time. -/

namespace AdaptiveBatch

/-- The end of the latest block of every node that was blocked. -/
@[ext] structure SlowNodes where
  /-- The ends by node. -/
  blockedUntil : Std.ExtTreeMap NodeId Instant := ∅
deriving DecidableEq

namespace SlowNodes

instance : EmptyCollection SlowNodes := ⟨{}⟩

instance : Inhabited SlowNodes := ⟨∅⟩

/-- Blocks a node from `now` on; an earlier block is forgotten. -/
def block (s : SlowNodes) (node : NodeId) (now : Instant) (d : Duration) : Checked SlowNodes := do
  let until' ← now.add d
  pure ⟨s.blockedUntil.insert node until'⟩

/-- Blocks several nodes, one after the other. -/
def blockAll (s : SlowNodes) (nodes : List NodeId) (now : Instant) (d : Duration) :
    Checked SlowNodes :=
  nodes.foldlM (fun s node => s.block node now d) s

/-- Whether the end of a node's block has not passed. -/
def isBlocked (s : SlowNodes) (node : NodeId) (now : Instant) : Bool :=
  match s.blockedUntil[node]? with
  | some until' => decide (now ≤ until')
  | none => false

/-- The blocked nodes in ascending order. -/
def blockedNodes (s : SlowNodes) (now : Instant) : List NodeId :=
  (s.blockedUntil.toList.filter fun entry => decide (now ≤ entry.2)).map (·.1)

/-- Drops the entries whose end has passed. -/
def purge (s : SlowNodes) (now : Instant) : SlowNodes :=
  ⟨s.blockedUntil.filter fun _ until' => decide (now ≤ until')⟩

/-- The number of entries. -/
def size (s : SlowNodes) : Nat := s.blockedUntil.size

/-- A node is blocked at `now` iff `s.blockedUntil` holds an end for it that is not before `now`;
the end itself still counts. -/
theorem isBlocked_iff {s : SlowNodes} {node : NodeId} {now : Instant} :
    s.isBlocked node now = true ↔ ∃ until' ∈ s.blockedUntil[node]?, now ≤ until' := by
  unfold isBlocked
  cases s.blockedUntil[node]? with
  | none => simp
  | some until' => simp

/-- The list `s.blockedNodes now` names exactly the nodes for which `s.isBlocked` answers yes at
`now`. -/
theorem mem_blockedNodes {s : SlowNodes} {node : NodeId} {now : Instant} :
    node ∈ s.blockedNodes now ↔ s.isBlocked node now = true := by
  rw [isBlocked_iff]
  simp [blockedNodes, Std.ExtTreeMap.mem_toList_iff_getElem?_eq_some]

/-- In the empty registry `∅` no node is blocked. -/
@[simp] theorem isBlocked_empty (node : NodeId) (now : Instant) :
    (∅ : SlowNodes).isBlocked node now = false := by
  have h : (∅ : SlowNodes).blockedUntil[node]? = none := Std.ExtTreeMap.getElem?_empty
  rw [isBlocked, h]

/-- Blocking succeeds iff the end `now.add d` exists, and then writes that end over whatever
`blockedUntil` held for the node. -/
theorem block_eq_ok_iff {s t : SlowNodes} {node : NodeId} {now : Instant} {d : Duration} :
    s.block node now d = .ok t ↔
      ∃ until', now.add d = .ok until' ∧ t = ⟨s.blockedUntil.insert node until'⟩ := by
  unfold block
  cases h : now.add d with
  | error o => simp [bind, Except.bind]
  | ok until' => simp [bind, Except.bind, pure, Except.pure, eq_comm]

/-- Blocking a list of nodes succeeds iff there is nothing to block or `now.add d` does not lie
beyond the end of the clock. -/
theorem exists_blockAll_eq_ok_iff {s : SlowNodes} {nodes : List NodeId} {now : Instant}
    {d : Duration} :
    (∃ t, s.blockAll nodes now d = .ok t) ↔ nodes = [] ∨ ∃ until', now.add d = .ok until' := by
  cases hadd : now.add d with
  | error o =>
    cases nodes with
    | nil => simp [blockAll, pure, Except.pure]
    | cons node rest => simp [blockAll, block, hadd, bind, Except.bind]
  | ok until' =>
    refine iff_of_true ?_ (Or.inr ⟨until', rfl⟩)
    -- Every block ends at the same time, whichever entries there are.
    induction nodes generalizing s with
    | nil => exact ⟨s, rfl⟩
    | cons node rest ih =>
      have hnode : s.block node now d = .ok ⟨s.blockedUntil.insert node until'⟩ :=
        block_eq_ok_iff.2 ⟨until', hadd, rfl⟩
      rw [blockAll, List.foldlM_cons, hnode]
      exact ih

end SlowNodes

end AdaptiveBatch
