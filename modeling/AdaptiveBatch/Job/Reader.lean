import AdaptiveBatch.Job.Graph
import AdaptiveBatch.Json.Reader
import AdaptiveBatch.Numeric.Word

/-! # Job graphs as JSON

A graph is a record with a name, vertices and optional edges; a vertex is a record with a name and
up to three optional 32-bit numbers.

* **`JobGraph.ofDatum?`** decodes a graph, **`JobGraph.toDatum`** encodes one with every field;
* **`JobGraph.parse?`** reads a text. -/

namespace AdaptiveBatch

open Datum

/-- Decodes a vertex. -/
def JobVertex.ofDatum? (d : Datum) : Option JobVertex := do
  let fields ← d.fields? Json.dialect ["id", "parallelism", "min_parallelism", "max_parallelism"]
  let number := asNullable? (asNat? HalfWord.limit)
  let id ← fields.required "id" asText?
  let parallelism ← fields.defaulted "parallelism" none number
  let minParallelism ← fields.defaulted "min_parallelism" none number
  let maxParallelism ← fields.defaulted "max_parallelism" none number
  some { id, parallelism, minParallelism, maxParallelism }

/-- Decodes an edge. -/
def JobEdge.ofDatum? (d : Datum) : Option JobEdge := do
  let fields ← d.fields? Json.dialect ["source", "target", "exchange"]
  let source ← fields.required "source" asText?
  let target ← fields.required "target" asText?
  let exchange ← fields.required "exchange" (asCase? Json.dialect ExchangeMode.ofName?)
  some { source, target, exchange }

/-- Decodes a graph. -/
def JobGraph.ofDatum? (d : Datum) : Option JobGraph := do
  let fields ← d.fields? Json.dialect ["name", "vertices", "edges"]
  let name ← fields.required "name" asText?
  let vertices ← fields.required "vertices" (asList? JobVertex.ofDatum?)
  let edges ← fields.defaulted "edges" [] (asList? JobEdge.ofDatum?)
  some { name, vertices, edges }

/-- Reads a graph. -/
def JobGraph.parse? (s : String) : Option JobGraph := (Json.read? s).bind JobGraph.ofDatum?

/-- A number that may be missing. -/
def Datum.ofNat? (n : Option Nat) : Datum := (n.map fun n => Datum.int n).getD .null

/-- Encodes a vertex. -/
def JobVertex.toDatum (v : JobVertex) : Datum :=
  .table [("id", .text v.id), ("parallelism", .ofNat? v.parallelism),
    ("min_parallelism", .ofNat? v.minParallelism), ("max_parallelism", .ofNat? v.maxParallelism)]

/-- Encodes an edge. -/
def JobEdge.toDatum (e : JobEdge) : Datum :=
  .table [("source", .text e.source), ("target", .text e.target),
    ("exchange", .text e.exchange.name)]

/-- Encodes a graph. -/
def JobGraph.toDatum (g : JobGraph) : Datum :=
  .table [("name", .text g.name), ("vertices", .list (g.vertices.map JobVertex.toDatum)),
    ("edges", .list (g.edges.map JobEdge.toDatum))]

end AdaptiveBatch
