import AdaptiveBatch.Text.Display

/-! # Job graphs

A job is a directed acyclic graph of vertices, each a stage that runs as a number of parallel tasks,
and edges along which data moves.

* **`JobGraph`**, **`JobVertex`**, **`JobEdge`**, **`ExchangeMode`** — the graph as it is submitted;
* **`JobGraph.inputsOf`**, **`JobGraph.outputsOf`**, **`JobGraph.isSource`** — its edges seen from a
  vertex;
* **`GraphError`** — what makes a graph unusable. -/

namespace AdaptiveBatch

/-- The name of a vertex of a job. -/
abbrev VertexId := String

/-- How data moves across an edge. -/
inductive ExchangeMode
  /-- Producer and consumer run together. -/
  | pipelined
  /-- The consumer starts when every task of the producer has finished. -/
  | blocking
  /-- The consumer may read what has been produced before the producer has finished. -/
  | hybrid
deriving DecidableEq, Repr

namespace ExchangeMode

/-- The name in job graphs. -/
def name : ExchangeMode → String
  | pipelined => "PIPELINED"
  | blocking => "BLOCKING"
  | hybrid => "HYBRID"

/-- The name in plans. -/
def label : ExchangeMode → String
  | pipelined => "Pipelined"
  | blocking => "Blocking"
  | hybrid => "Hybrid"

/-- The mode with a name in job graphs. -/
def ofName? : String → Option ExchangeMode
  | "PIPELINED" => some pipelined
  | "BLOCKING" => some blocking
  | "HYBRID" => some hybrid
  | _ => none

end ExchangeMode

/-- One stage of a job. -/
@[ext] structure JobVertex where
  /-- The name, unique in the job. -/
  id : VertexId
  /-- A parallelism set by the user, never changed. -/
  parallelism : Option Nat := none
  /-- A lower bound of the parallelism instead of the configured one. -/
  minParallelism : Option Nat := none
  /-- An upper bound of the parallelism instead of the configured one. -/
  maxParallelism : Option Nat := none
deriving DecidableEq, Repr

/-- A data dependency between two vertices. -/
@[ext] structure JobEdge where
  /-- The producer. -/
  source : VertexId
  /-- The consumer. -/
  target : VertexId
  /-- How the data moves. -/
  exchange : ExchangeMode
deriving DecidableEq, Repr

/-- A job: its vertices and edges in the order in which they are declared. -/
@[ext] structure JobGraph where
  /-- The name of the job. -/
  name : String
  /-- The vertices. -/
  vertices : List JobVertex := []
  /-- The edges. -/
  edges : List JobEdge := []
deriving DecidableEq, Repr

namespace JobGraph

/-- The graph with one more vertex. -/
def addVertex (g : JobGraph) (v : JobVertex) : JobGraph := { g with vertices := g.vertices ++ [v] }

/-- The graph with one more edge. -/
def addEdge (g : JobGraph) (source target : VertexId) (exchange : ExchangeMode) : JobGraph :=
  { g with edges := g.edges ++ [{ source, target, exchange }] }

/-- The first vertex with a name. -/
def get? (g : JobGraph) (id : VertexId) : Option JobVertex := g.vertices.find? (·.id = id)

/-- The edges a vertex consumes, in the order of declaration. -/
def inputsOf (g : JobGraph) (id : VertexId) : List JobEdge := g.edges.filter (·.target = id)

/-- The edges a vertex produces, in the order of declaration. -/
def outputsOf (g : JobGraph) (id : VertexId) : List JobEdge := g.edges.filter (·.source = id)

/-- Whether a vertex consumes no edge. -/
def isSource (g : JobGraph) (id : VertexId) : Bool := (g.inputsOf id).isEmpty

/-- The inputs of `id` are the edges of the graph with `target = id`. -/
@[simp] theorem mem_inputsOf {g : JobGraph} {id : VertexId} {e : JobEdge} :
    e ∈ g.inputsOf id ↔ e ∈ g.edges ∧ e.target = id := by
  simp [inputsOf]

/-- The outputs of `id` are the edges of the graph with `source = id`. -/
@[simp] theorem mem_outputsOf {g : JobGraph} {id : VertexId} {e : JobEdge} :
    e ∈ g.outputsOf id ↔ e ∈ g.edges ∧ e.source = id := by
  simp [outputsOf]

end JobGraph

/-- Why a graph cannot be run. -/
inductive GraphError
  /-- There is no vertex. -/
  | empty
  /-- Two vertices have the same name. -/
  | duplicateVertex (id : VertexId)
  /-- An edge names a vertex that is not declared. -/
  | unknownVertex (source target missing : VertexId)
  /-- An edge leads from a vertex to itself. -/
  | selfLoop (id : VertexId)
  /-- These vertices lie on a cycle or behind one. -/
  | cycle (ids : List VertexId)
deriving DecidableEq, Repr

/-- The text reported for an unusable graph. -/
def GraphError.message : GraphError → String
  | .empty => "job graph has no vertices"
  | .duplicateVertex id => s!"duplicate vertex id: {id}"
  | .unknownVertex source target missing =>
    s!"edge {source} -> {target} references unknown vertex {missing}"
  | .selfLoop id => s!"vertex {id} consumes its own output"
  | .cycle ids => s!"job graph contains a cycle through {Text.quotedList ids}"

end AdaptiveBatch
