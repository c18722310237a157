import AdaptiveBatch.Numeric.ByteSize
import AdaptiveBatch.Simulation.Run
import AdaptiveBatch.Text.Display

/-! # Reports of simulations

* **`SimulationReport.format`** writes the end of a simulation as a table, a vertex a line;
* **`SimulationReport.toDatum`** encodes it. -/

namespace AdaptiveBatch

open Text

namespace SimulationReport

/-- One line of the table. -/
def row (vertex generation parallelism finished attempts speculative output : String) : String :=
  " ".intercalate ["", "", padRight 20 vertex, padLeft 4 generation, padLeft 11 parallelism,
    padLeft 8 finished, padLeft 8 attempts, padLeft 11 speculative, padLeft 10 output] ++ "\n"

/-- The names of the columns. -/
def header : String :=
  row "VERTEX" "GEN" "PARALLELISM" "FINISHED" "ATTEMPTS" "SPECULATIVE" "OUTPUT"

/-- The line of a vertex. -/
def vertexRow (v : VertexSummary) : String :=
  row v.vertex (toString v.generation) (toString v.parallelism) (toString v.finishedTasks)
    (toString v.attempts) s!"{v.speculativeWins}/{v.speculativeAttempts}"
    (ByteSize.format v.outputBytes)

/-- The end of a simulation in words. -/
def format (r : SimulationReport) : String :=
  let s := r.summary
  s!"Job: {s.job} ({s.status.label})\n" ++
    s!"Simulated time: {FloatText.fixed 1 r.elapsed.toFloat}s\n" ++
    s!"Slots: {s.slots}  Rescales: {s.rescales}  Speculative launches: {s.speculativeLaunches}\n" ++
    (match r.error with
      | some e => s!"Error: {e.message}\n"
      | none => "") ++
    "\n" ++ header ++ String.join (s.vertices.map vertexRow)

/-- Encodes the end of a simulation. -/
def toDatum (r : SimulationReport) : Datum :=
  .table [("simulated_secs", .float r.elapsed.toFloat),
    ("error", (r.error.map fun e => Datum.text e.message).getD .null),
    ("summary", r.summary.toDatum)]

end SimulationReport

end AdaptiveBatch
