import AdaptiveBatch.Cluster.Counts
import AdaptiveBatch.Json.Reader
import AdaptiveBatch.Numeric.Word

/-! # Resource views

A resource view is a snapshot of the slots that the nodes of a cluster offer to a job, in the order
in which they were reported. It is all the scheduler knows about the cluster.

* **`Slot`**, **`ResourceView`** — the snapshot; two views are the same when `==` says so, which
  compares processor shares as numbers;
* **`ResourceView.nodes`**, **`ResourceView.slotsOn`** — the nodes in the order in which they first
  occur, and their slots;
* **`ResourceView.capped`** — the part of a view that a job may use. -/

namespace AdaptiveBatch

open Datum

/-- A slot offered by a node. -/
structure Slot where
  /-- The node. -/
  node : NodeId
  /-- The share of its processors. -/
  cpuCores : Float
  /-- The share of its memory, in bytes. -/
  memoryBytes : Nat
deriving BEq

/-- The slots available to a job. -/
@[ext] structure ResourceView where
  /-- The slots in the order in which they were reported. -/
  slots : List Slot := []
deriving BEq

namespace ResourceView

instance : EmptyCollection ResourceView := ⟨{}⟩

instance : Inhabited ResourceView := ⟨∅⟩

/-- The view with `count` equal slots of a node added at the end. -/
def addNode (view : ResourceView) (node : NodeId) (count : Nat) (cpuCores : Float)
    (memoryBytes : Nat) : ResourceView :=
  ⟨view.slots ++ List.replicate count ⟨node, cpuCores, memoryBytes⟩⟩

/-- The view without the slots of a node. -/
def withoutNode (view : ResourceView) (node : NodeId) : ResourceView :=
  ⟨view.slots.filter (·.node ≠ node)⟩

/-- The number of slots, as a count of any size. It does not stop at `2 ^ 32 - 1` as a count held in
a half word would, which only a view with more slots than that can tell. -/
def slotCount (view : ResourceView) : Nat := view.slots.length

/-- The nodes, each once, in the order in which they first occur. -/
def nodes (view : ResourceView) : List NodeId := (view.slots.map (·.node)).eraseDups

/-- The number of slots of a node. Like `slotCount` it does not stop at `2 ^ 32 - 1`. -/
def slotsOn (view : ResourceView) (node : NodeId) : Nat :=
  (view.slots.filter (·.node = node)).length

/-- The nodes with their numbers of slots, which are counted once for all nodes. -/
def slotsPerNode (view : ResourceView) : List (NodeId × Nat) :=
  let counts := NodeCounts.ofNodes (view.slots.map (·.node))
  view.nodes.map fun node => (node, counts.on node)

/-- The sum of the processor shares, added from left to right; a sum of nothing is minus zero. -/
def totalCpuCores (view : ResourceView) : Float :=
  view.slots.foldl (fun sum slot => sum + slot.cpuCores) (-0.0)

/-- The sum of the memory shares. -/
def totalMemoryBytes (view : ResourceView) : Checked Nat :=
  Word.sum (view.slots.map (·.memoryBytes))

/-- The first `max` slots, or all of them. -/
def capped (view : ResourceView) : (max : Option Nat) → ResourceView
  | some max => ⟨view.slots.take max⟩
  | none => view

/-- Adding a node with `addNode` adds exactly `count` slots. -/
@[simp] theorem slotCount_addNode (view : ResourceView) (node : NodeId) (count : Nat)
    (cpuCores : Float) (memoryBytes : Nat) :
    (view.addNode node count cpuCores memoryBytes).slotCount = view.slotCount + count := by
  simp [addNode, slotCount]

/-- A view capped at `max` offers `min max view.slotCount` slots. -/
theorem slotCount_capped (view : ResourceView) (max : Nat) :
    (view.capped (some max)).slotCount = min max view.slotCount := by
  simp [capped, slotCount]

/-- The nodes of a view are those of its slots. -/
theorem mem_nodes {view : ResourceView} {node : NodeId} :
    node ∈ view.nodes ↔ ∃ slot ∈ view.slots, slot.node = node := by
  rw [nodes, List.mem_eraseDups, List.mem_map]

/-- The slots of a node are its occurrences in the view: `slotsOn` is a `List.count` over the nodes
of the slots. -/
theorem slotsOn_eq_count (view : ResourceView) (node : NodeId) :
    view.slotsOn node = (view.slots.map (·.node)).count node := by
  rw [slotsOn, List.count, List.countP_map, List.countP_eq_length_filter]
  congr 1

/-- The one-pass count behind `slotsPerNode` agrees with `slotsOn` at each node, and keeps the order
of `nodes`. -/
theorem slotsPerNode_eq (view : ResourceView) :
    view.slotsPerNode = view.nodes.map fun node => (node, view.slotsOn node) := by
  simp only [slotsPerNode, NodeCounts.on_ofNodes, slotsOn_eq_count]

/-! ## As JSON -/

/-- Decodes a slot. -/
def slotOfDatum? (d : Datum) : Option Slot := do
  let fields ← d.fields? Json.dialect ["node_id", "cpu_cores", "memory_bytes"]
  let node ← fields.required "node_id" asText?
  let cpuCores ← fields.required "cpu_cores" asFloat?
  let memoryBytes ← fields.required "memory_bytes" (asNat? Word.limit)
  some { node, cpuCores, memoryBytes }

/-- Decodes a view. -/
def ofDatum? (d : Datum) : Option ResourceView := do
  let fields ← d.fields? Json.dialect ["slots"]
  some ⟨← fields.required "slots" (asList? slotOfDatum?)⟩

/-- Encodes a slot. -/
def slotToDatum (slot : Slot) : Datum :=
  .table [("node_id", .text slot.node), ("cpu_cores", .float slot.cpuCores),
    ("memory_bytes", .int slot.memoryBytes)]

/-- Encodes a view. -/
def toDatum (view : ResourceView) : Datum := .table [("slots", .list (view.slots.map slotToDatum))]

end ResourceView

/-! ## Uniform clusters -/

/-- A cluster of equal nodes. -/
structure MiniCluster where
  /-- The number of nodes. -/
  taskManagers : Nat := 1
  /-- The number of slots of a node. -/
  slotsPerTaskManager : Nat := 1
  /-- The share of the processors of a slot. -/
  cpuPerSlot : Float := 1
  /-- The memory of a slot, in bytes. -/
  memoryPerSlot : Nat := 1024 * 1024 * 1024

namespace MiniCluster

/-- The name of a node by its number. -/
def nodeId (index : Nat) : NodeId := s!"tm-{index}"

/-- All slots, node by node. -/
def view (c : MiniCluster) : ResourceView :=
  (List.range c.taskManagers).foldl
    (fun view i => view.addNode (nodeId i) c.slotsPerTaskManager c.cpuPerSlot c.memoryPerSlot) ∅

/-- Decodes a cluster; every field has a default. -/
def ofDatum? (d : Datum) : Option MiniCluster := do
  let fields ← d.fields? Json.dialect
    ["task_managers", "slots_per_task_manager", "cpu_per_slot", "memory_per_slot"]
  let standard : MiniCluster := {}
  let taskManagers ← fields.defaulted "task_managers" standard.taskManagers (asNat? HalfWord.limit)
  let slotsPerTaskManager ←
    fields.defaulted "slots_per_task_manager" standard.slotsPerTaskManager (asNat? HalfWord.limit)
  let cpuPerSlot ← fields.defaulted "cpu_per_slot" standard.cpuPerSlot asFloat?
  let memoryPerSlot ← fields.defaulted "memory_per_slot" standard.memoryPerSlot (asNat? Word.limit)
  some { taskManagers, slotsPerTaskManager, cpuPerSlot, memoryPerSlot }

end MiniCluster

/-! ## Changing views -/

/-- The current view of a cluster and the number of changes so far, by which a subscriber knows
whether it has seen the current one. -/
structure ViewFeed where
  /-- The current view. -/
  current : ResourceView
  /-- The number of changes. -/
  changes : Nat := 0

/-- Replaces the current view. Nothing happens when the new view is the same. -/
def ViewFeed.publish (feed : ViewFeed) (view : ResourceView) : ViewFeed :=
  if feed.current == view then feed else { current := view, changes := feed.changes + 1 }

end AdaptiveBatch
