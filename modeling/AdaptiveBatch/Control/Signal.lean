import AdaptiveBatch.Scheduler.Reports

/-! # Signals

The control loop of a job gives its scheduler one signal after the other: events, views of the
resources, ticks and polls. A request for a restart that comes back is carried out at once, or
handed out to somebody who reports later that it is carried out.

* **`Signal`**, **`Signal.give`** — a signal and what the scheduler does with it. -/

namespace AdaptiveBatch

/-- Who carries out restarts. -/
inductive Restarts
  /-- The control loop itself, at once. -/
  | inPlace
  /-- Somebody else, to whom the request is handed out. -/
  | handedOut
deriving DecidableEq, Repr

namespace Restarts

/-- What becomes of a request for a restart; a request that is handed out is returned. -/
def dispatch (r : Restarts) (now : Instant) (request : Option ScaleRequest) :
    Scheduling (Option ScaleRequest) :=
  match r, request with
  | _, none => pure none
  | .inPlace, some request => do Scheduler.applyScale request now; pure none
  | .handedOut, some request => pure (some request)

end Restarts

/-- What a control loop tells its scheduler. -/
inductive Signal
  /-- Something has happened. -/
  | event (e : Event)
  /-- The resources have changed. -/
  | view (v : ResourceView)
  /-- It is time to look for slow attempts. -/
  | tick
  /-- It is time to look at the resources again. -/
  | poll

/-- A call whose refusal for a report that does not fit is ignored. -/
def Scheduling.tolerant {α : Type} (x : Scheduling (Option α)) : Scheduling (Option α) := fun s =>
  match x s with
  | .error (.refused (.execution _)) s => .ok none s
  | result => result

/-- Gives a signal to the scheduler; a request that is handed out is returned. -/
def Signal.give (r : Restarts) (now : Instant) : Signal → Scheduling (Option ScaleRequest)
  | .event (.resources v) => do r.dispatch now (← Scheduler.resourcesChanged v now)
  | .event e => Scheduling.tolerant (e.call now)
  | .view v => do r.dispatch now (← Scheduler.resourcesChanged v now)
  | .tick => do let _ ← Scheduler.tick now; pure none
  | .poll => do r.dispatch now (← Scheduler.poll now)

end AdaptiveBatch
