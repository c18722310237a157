import AdaptiveBatch.Job.Graph

/-! # Dependency order of a job graph

Vertices are emitted from a queue that starts with the sources in the order of declaration. Emitting
a vertex releases the consumers whose last producer it is; they join the end of the queue, again in
the order of declaration. What is never released lies on a cycle or behind one.

* **`JobGraph.released`** — the vertices that an emitted vertex sets free;
* **`JobGraph.emit`** — the vertices in the order of emission;
* **`JobGraph.topologicalOrder`** — that order, or the first defect of the graph. -/

namespace AdaptiveBatch.JobGraph

/-- The names of the producers of a vertex, one for each edge. -/
def producersOf (g : JobGraph) (id : VertexId) : List VertexId := (g.inputsOf id).map (·.source)

/-- The names of the consumers of a vertex, one for each edge. -/
def consumersOf (g : JobGraph) (id : VertexId) : List VertexId := (g.outputsOf id).map (·.target)

/-- Both `consumersOf` and `producersOf` read the same edges: `c` consumes from `p` iff `p` produces
for `c`. -/
theorem mem_consumersOf_iff {g : JobGraph} {p c : VertexId} :
    c ∈ g.consumersOf p ↔ p ∈ g.producersOf c := by
  simp only [consumersOf, producersOf, List.mem_map, mem_inputsOf, mem_outputsOf]
  exact exists_congr fun e => and_right_comm

/-- The consumers of `last` all of whose producers are among `emitted`, in the order of
declaration. -/
def released (g : JobGraph) (emitted : List JobVertex) (last : JobVertex) : List JobVertex :=
  let consumers := g.consumersOf last.id
  let known := emitted.map (·.id)
  g.vertices.filter fun v =>
    decide (v.id ∈ consumers) && (g.producersOf v.id).all fun p => decide (p ∈ known)

/-- Emits vertices from the queue until it is empty. Every vertex joins the queue at most once, so
the number of vertices bounds the steps. -/
def emit (g : JobGraph) : (steps : Nat) → (emitted queue : List JobVertex) → List JobVertex
  | 0, emitted, _ => emitted
  | _ + 1, emitted, [] => emitted
  | steps + 1, emitted, v :: queue =>
    g.emit steps (emitted ++ [v]) (queue ++ g.released (emitted ++ [v]) v)

/-- The vertices in the order of emission. -/
def emission (g : JobGraph) : List JobVertex :=
  g.emit g.vertices.length [] (g.vertices.filter fun v => g.isSource v.id)

/-- The first name that occurs a second time, with the names before it given. -/
def firstRepeated? (seen : List VertexId) : List VertexId → Option VertexId
  | [] => none
  | id :: rest => if id ∈ seen then some id else firstRepeated? (id :: seen) rest

/-- What is wrong with an edge by itself. -/
def edgeError? (g : JobGraph) (e : JobEdge) : Option GraphError :=
  let known := g.vertices.map (·.id)
  if e.source ∉ known then some (.unknownVertex e.source e.target e.source)
  else if e.target ∉ known then some (.unknownVertex e.source e.target e.target)
  else if e.source = e.target then some (.selfLoop e.source)
  else none

/-- The vertices so that every producer stands before its consumers, or the first defect: no vertex,
a repeated name, a faulty edge, a cycle. -/
def topologicalOrder (g : JobGraph) : Except GraphError (List JobVertex) :=
  if g.vertices = [] then .error .empty
  else match firstRepeated? [] (g.vertices.map (·.id)) with
    | some id => .error (.duplicateVertex id)
    | none => match g.edges.findSome? g.edgeError? with
      | some e => .error e
      | none =>
        let order := g.emission
        if order.length = g.vertices.length then .ok order
        else
          .error (.cycle ((g.vertices.filter fun v => decide (v.id ∉ order.map (·.id))).map (·.id)))

end AdaptiveBatch.JobGraph
