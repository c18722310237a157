import AdaptiveBatch.Cluster.View
import AdaptiveBatch.Decimal.Notation
import AdaptiveBatch.Job.Reader
import Std.Data.ExtTreeMap

/-! # Scenarios

A scenario is a job with all that decides how its tasks execute: a cluster that changes at given
times, how long the tasks of each vertex take and what they read and produce, and how much slower
each node is.

* **`Scenario`**, **`Profile`**, **`ClusterChange`** — the scenario;
* **`Scenario.validate`** — factors lie in a range;
* **`Scenario.ofDatum?`**, **`Scenario.parse`** — scenarios as JSON. -/

namespace AdaptiveBatch

open Datum

/-- How every task of a vertex behaves. -/
@[ext] structure Profile where
  /-- How long it takes on a node of normal speed, in milliseconds. -/
  durationMillis : Nat := 1000
  /-- The bytes it reads, if it reports them. -/
  inputBytes : Option Nat := none
  /-- The bytes it produces. -/
  outputBytes : Nat := 0
deriving DecidableEq, Repr

/-- Another cluster from some time on. -/
structure ClusterChange where
  /-- The seconds after the start. -/
  atSeconds : Nat
  /-- The cluster. -/
  cluster : MiniCluster

/-- A job and what decides how its tasks execute. -/
structure Scenario where
  /-- The job. -/
  job : JobGraph
  /-- The cluster at the start. -/
  cluster : MiniCluster := {}
  /-- The factors by which nodes are slower; the others have normal speed. -/
  slowdown : Std.ExtTreeMap NodeId Float := ∅
  /-- How the tasks of vertices behave; the others have the standard profile. -/
  profiles : Std.ExtTreeMap VertexId Profile := ∅
  /-- The changes of the cluster, each after the one before. -/
  changes : List ClusterChange := []
  /-- The seconds after which the simulation is stopped. -/
  timeLimitSeconds : Nat := 3600

/-- Why a scenario cannot be used. -/
inductive ScenarioError
  /-- The text is not a scenario. -/
  | malformed
  /-- A node is slower by a factor outside the range. -/
  | slowdown (node : NodeId) (factor : Float)
deriving DecidableEq

namespace Scenario

/-- The largest factor by which a node may be slower. -/
def maxSlowdown : Float := 1000

/-- Whether a factor is in range. -/
def isSlowdown (factor : Float) : Bool := 0 < factor && factor ≤ maxSlowdown

/-- Refuses a factor outside the range. -/
def validate (s : Scenario) : Except ScenarioError Unit :=
  match s.slowdown.toList.find? fun entry => !isSlowdown entry.2 with
  | none => .ok ()
  | some (node, factor) => .error (.slowdown node factor)

end Scenario

/-- The text reported for a scenario that cannot be used. -/
def ScenarioError.message : ScenarioError → String
  | .malformed => "not a scenario"
  | .slowdown node factor =>
    s!"slowdown for {node} must be in (0, {FloatText.positional Scenario.maxSlowdown}], got " ++
      FloatText.positional factor

/-! ## As JSON -/

/-- Decodes a profile; every field has a default. -/
def Profile.ofDatum? (d : Datum) : Option Profile := do
  let fields ←
    d.fields? Json.dialect ["duration_ms", "input_bytes_per_task", "output_bytes_per_task"]
  let standard : Profile := {}
  let durationMillis ←
    fields.defaulted "duration_ms" standard.durationMillis (asNat? Word.limit)
  let inputBytes ←
    fields.defaulted "input_bytes_per_task" standard.inputBytes (asNullable? (asNat? Word.limit))
  let outputBytes ←
    fields.defaulted "output_bytes_per_task" standard.outputBytes (asNat? Word.limit)
  some { durationMillis, inputBytes, outputBytes }

/-- Decodes a change of the cluster. -/
def ClusterChange.ofDatum? (d : Datum) : Option ClusterChange := do
  let fields ← d.fields? Json.dialect ["at_secs", "cluster"]
  let atSeconds ← fields.required "at_secs" (asNat? Word.limit)
  let cluster ← fields.required "cluster" MiniCluster.ofDatum?
  some { atSeconds, cluster }

namespace Scenario

/-- Decodes values by name; of values with one name the last one counts. -/
def asMap? {α : Type} (decode : Datum → Option α) (d : Datum) :
    Option (Std.ExtTreeMap String α) :=
  (d.asTable? decode).map fun entries =>
    entries.foldl (fun m (name, value) => m.insert name value) ∅

/-- Decodes a scenario. -/
def ofDatum? (d : Datum) : Option Scenario := do
  let fields ← d.fields? Json.dialect
    ["job", "cluster", "slowdown", "vertices", "resource_changes", "time_limit_secs"]
  let job ← fields.required "job" JobGraph.ofDatum?
  let cluster ← fields.defaulted "cluster" {} MiniCluster.ofDatum?
  let slowdown ← fields.defaulted "slowdown" ∅ (asMap? asFloat?)
  let profiles ← fields.defaulted "vertices" ∅ (asMap? Profile.ofDatum?)
  let changes ← fields.defaulted "resource_changes" [] (asList? ClusterChange.ofDatum?)
  let timeLimitSeconds ← fields.defaulted "time_limit_secs" 3600 (asNat? Word.limit)
  some { job, cluster, slowdown, profiles, changes, timeLimitSeconds }

/-- Reads a scenario and checks it. -/
def parse (s : String) : Except ScenarioError Scenario :=
  match (Json.read? s).bind ofDatum? with
  | none => .error .malformed
  | some scenario => do
    scenario.validate
    pure scenario

end Scenario

end AdaptiveBatch
