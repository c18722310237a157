import AdaptiveBatch.Control.Loop
import AdaptiveBatch.Scheduler.Summary
import AdaptiveBatch.Simulation.Scenario

/-! # Simulation

A job runs under its control loop on simulated nodes. An attempt reports that it runs as soon as it
is started, and that it is finished after the time its vertex takes on its node, counted in whole
milliseconds. Reports of an attempt that was canceled in between are stray, so they need not be
taken back.

* **`Scenario.echo`** — what an attempt reports;
* **`Scenario.loop`** — the control loop of a scenario;
* **`Scenario.simulate`** — its end, as a **`SimulationReport`**. -/

namespace AdaptiveBatch

/-- The duration rounded up to whole milliseconds. -/
def Duration.ceilMillis (d : Duration) : Duration :=
  .ofMillis ((d.nanos + (nanosPerMilli - 1)) / nanosPerMilli)

/-- The end of a simulation. -/
structure SimulationReport where
  /-- The time the job took. -/
  elapsed : Duration
  /-- Why the control loop has ended, if a call was refused. -/
  error : Option SchedulerError
  /-- How far the job has come. -/
  summary : JobSummary

namespace Scenario

/-- How long a task takes on a node. -/
def taskDuration (s : Scenario) (p : Profile) (node : NodeId) : Duration :=
  (Duration.ofMillis p.durationMillis).scale (s.slowdown.getD node 1)

/-- What an attempt reports once it is started, and after which time. -/
def echo (s : Scenario) : BackendCall → List (Duration × Event)
  | .deploy id node _ true =>
    let p := s.profiles.getD id.vertex {}
    [(.zero, .running id)] ++
      p.inputBytes.toList.map (fun bytes => (.zero, .progress id bytes)) ++
      [((s.taskDuration p node).ceilMillis, .finished id p.inputBytes (some p.outputBytes))]
  | _ => []

/-- The changes of the cluster and the time limit. A change beyond the end of the clock comes as
late as possible. -/
def agenda (s : Scenario) : Agenda :=
  let changes := s.changes.map fun c =>
    ((Instant.origin.add? (.ofSeconds c.atSeconds)).getD .last, Occurrence.view c.cluster.view)
  (Agenda.inSequence .origin changes).stopAfter (.ofSeconds s.timeLimitSeconds)

/-- The control loop of the scenario at its start. -/
def loop (s : Scenario) (config : Config) : Except SchedulerError ControlLoop := do
  let scheduler ← Scheduler.submit config s.job .willing .origin
  pure {
    scheduler
    echo := s.echo
    agenda := s.agenda
    views := some { current := s.cluster.view } }

/-- The end of the simulation of a scenario; an error when the job cannot be submitted. -/
def simulate (s : Scenario) (config : Config) :
    ExceptT SchedulerError Checked SimulationReport := do
  let (ended, c) := (← liftExcept (s.loop config)).run
  let error ← match ended with
    | none => pure none
    | some (.refused e) => pure (some e)
    | some (.abandoned o) => throwThe Overflow o
  let summary ← (c.scheduler.summary : Checked JobSummary)
  pure { elapsed := c.now.since .origin, error, summary }

end Scenario

end AdaptiveBatch
