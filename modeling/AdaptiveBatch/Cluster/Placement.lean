import AdaptiveBatch.Cluster.SlowNodes
import AdaptiveBatch.Config.Basic

/-! # Placement

Slots are shared between vertices: a slot holds at most one active attempt of each vertex, so a node
is free for a vertex while the vertex has fewer active attempts there than the node has slots. Among
the nodes that are free and not blocked, those that do not host an attempt of the same task come
first; the load balance may prefer nodes with fewer attempts; the order of the view decides what is
left.

* **`NodeLoad`**, **`nodeLoads`** — the occupancy of the nodes for a vertex;
* **`rankNodes`** — the eligible nodes, best first; **`selectNode`** — the best one. -/

namespace AdaptiveBatch

/-- The occupancy of a node when an attempt of a vertex is placed. -/
structure NodeLoad where
  /-- The node. -/
  node : NodeId
  /-- Its number of slots. -/
  slots : Nat
  /-- Active attempts of all vertices. -/
  activeAttempts : Nat
  /-- Active attempts of the vertex. -/
  vertexAttempts : Nat
  /-- Whether the node is blocked. -/
  blocked : Bool
deriving DecidableEq, Repr

namespace NodeLoad

/-- The slots that are free for the vertex. -/
def freeSlots (l : NodeLoad) : Nat := l.slots - l.vertexAttempts

/-- Whether the node can take an attempt of the vertex. -/
def eligible (l : NodeLoad) : Bool := !l.blocked && decide (0 < l.freeSlots)

end NodeLoad

/-- The occupancy of the nodes of a view, in its order. -/
def nodeLoads (view : ResourceView) (active vertexActive : NodeCounts) (slow : SlowNodes)
    (now : Instant) : List NodeLoad :=
  view.slotsPerNode.map fun (node, slots) =>
    { node, slots
      activeAttempts := active.on node
      vertexAttempts := vertexActive.on node
      blocked := slow.isBlocked node now }

/-- What an attempt asks of its node. -/
structure PlacementRequest where
  /-- Which node is taken first. -/
  mode : LoadBalance
  /-- The nodes that host an attempt of the same task. -/
  avoid : List NodeId

namespace PlacementRequest

/-- Zero for a node that hosts no attempt of the same task, one for the others. -/
def siblingRank (r : PlacementRequest) (l : NodeLoad) : Nat := if l.node ∈ r.avoid then 1 else 0

/-- The number of attempts by which nodes are compared. -/
def balanceRank (r : PlacementRequest) (l : NodeLoad) : Nat :=
  match r.mode with
  | .none => 0
  | .tasks => l.activeAttempts

/-- Whether a node is at least as good as another, their order in the view aside. -/
def prefers (r : PlacementRequest) (a b : NodeLoad) : Bool :=
  decide (r.siblingRank a < r.siblingRank b) ||
    (decide (r.siblingRank a = r.siblingRank b) && decide (r.balanceRank a ≤ r.balanceRank b))

end PlacementRequest

/-- The eligible nodes, best first; equally good ones keep the order of the view. -/
def rankNodes (loads : List NodeLoad) (r : PlacementRequest) : List NodeLoad :=
  (loads.filter NodeLoad.eligible).mergeSort r.prefers

/-- The best node, if any is eligible. -/
def selectNode (loads : List NodeLoad) (r : PlacementRequest) : Option NodeId :=
  (rankNodes loads r).head?.map (·.node)

end AdaptiveBatch
