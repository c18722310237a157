import AdaptiveBatch.Control.Signal

/-! # The control loop on a timetable

A control loop whose surroundings are written down in advance: what will happen is an agenda in
order of time, and calls to the backend may add to it. Time jumps from one entry to the next. At
every point in time the ticks and polls that are due come first, then events in the order of their
arrival, then a changed view, then whatever else the agenda holds for that time; the loop ends when
the job does, when it is told to stop, or when no more events will come.

* **`Occurrence`**, **`Agenda`** — what happens around a job, and when;
* **`ControlLoop`**, **`ControlLoop.turn`** — the loop and one turn of it;
* **`ControlLoop.run`** — all turns. -/

namespace AdaptiveBatch

/-- What happens around a job. -/
inductive Occurrence
  /-- Something is reported. -/
  | event (e : Event)
  /-- The view of the resources is published. -/
  | view (v : ResourceView)
  /-- No view will be published any more. -/
  | viewsEnd
  /-- Nothing will be reported any more. -/
  | eventsEnd
  /-- The loop is told to stop. -/
  | stop

/-- What will happen, in order of time. -/
abbrev Agenda := List (Instant × Occurrence)

/-- The far future: thirty years of 365 days. -/
def farFuture : Duration := .ofSeconds (86400 * 365 * 30)

/-- When a timer goes off that is set for a duration: in the far future if that would be beyond the
end of the clock. -/
def Instant.after (t : Instant) (d : Duration) : Instant :=
  ((t.add? d).or (t.add? farFuture)).getD .last

namespace Agenda

/-- Adds an entry after those of the same time. -/
def add (agenda : Agenda) (entry : Instant × Occurrence) : Agenda :=
  agenda.takeWhile (·.1 ≤ entry.1) ++ entry :: agenda.dropWhile (·.1 ≤ entry.1)

/-- The agenda of occurrences that happen one after the other: none happens before the ones in front
of it. -/
def inSequence (earliest : Instant) : List (Instant × Occurrence) → Agenda
  | [] => []
  | (time, o) :: rest => (max earliest time, o) :: inSequence (max earliest time) rest

/-- Adds the order to stop after a duration, in the far future at the latest. -/
def stopAfter (agenda : Agenda) (d : Duration) : Agenda :=
  agenda.add (Instant.origin.after (min d farFuture), .stop)

end Agenda

/-- A control loop with its surroundings. -/
structure ControlLoop where
  /-- The scheduler of the job. -/
  scheduler : Scheduler
  /-- Who carries out restarts. -/
  restarts : Restarts := .inPlace
  /-- The time between two polls. -/
  pollInterval : Duration := .ofSeconds 1
  /-- What a call to the backend leads to, and after which time. -/
  echo : BackendCall → List (Duration × Event) := fun _ => []
  /-- What will happen. -/
  agenda : Agenda := []
  /-- The published views, if the loop follows them. -/
  views : Option ViewFeed := none
  /-- The number of changes of the view that the loop has seen. -/
  seen : Nat := 0
  /-- Whether more views may be published. -/
  viewsOpen : Bool := true
  /-- The current time. -/
  now : Instant := .origin
  /-- The time of the next tick. -/
  nextTick : Instant := .origin
  /-- The time of the next poll. -/
  nextPoll : Instant := .origin
  /-- The events that have arrived and are not handled yet. -/
  queue : List Event := []
  /-- All events that have arrived, the latest first. -/
  arrived : List Event := []
  /-- The requests that were handed out, the latest first. -/
  requests : List ScaleRequest := []
  /-- Whether the loop is told to stop, or will hear no more events. -/
  ending : Bool := false

/-- What a turn of the loop leads to. -/
inductive Turn
  /-- Another turn. -/
  | next
  /-- The end of the loop. -/
  | ended
  /-- The end of the loop because a call was refused or abandoned. -/
  | interrupted (i : Interruption)

namespace ControlLoop

/-- The calls to the backend that a scheduler has made since there were so many. -/
def callsSince (s : Scheduler) (count : Nat) : List BackendCall :=
  (s.backend.calls.take (s.backend.calls.length - count)).reverse

/-- The loop after calls to the backend, with what they lead to on the agenda. -/
def echoed (c : ControlLoop) (calls : List BackendCall) : ControlLoop :=
  let echoes := (calls.flatMap c.echo).map fun (delay, e) =>
    (c.now.after delay, Occurrence.event e)
  { c with agenda := echoes.foldl Agenda.add c.agenda }

/-- Gives a signal to the scheduler. -/
def give (c : ControlLoop) (signal : Signal) : Turn × ControlLoop :=
  let count := c.scheduler.backend.calls.length
  match (signal.give c.restarts c.now).run c.scheduler with
  | .ok request s =>
    (.next, { c with scheduler := s, requests := request.toList ++ c.requests }.echoed
      (callsSince s count))
  | .error i s => (.interrupted i, { c with scheduler := s })

/-- Something happens. -/
def happen (c : ControlLoop) : Occurrence → ControlLoop
  | .event e => { c with queue := c.queue ++ [e], arrived := e :: c.arrived }
  | .view v => if c.viewsOpen then { c with views := c.views.map (·.publish v) } else c
  | .viewsEnd => { c with viewsOpen := false }
  | .eventsEnd => { c with ending := true }
  | .stop => { c with ending := true }

/-- The published view, if the loop follows the views and has not seen it. -/
def unseenView? (c : ControlLoop) : Option ViewFeed := c.views.filter (·.changes ≠ c.seen)

/-- The time of the next tick, poll or entry of the agenda. -/
def nextTime (c : ControlLoop) : Instant :=
  let timer := min c.nextTick c.nextPoll
  match c.agenda with
  | [] => timer
  | entry :: _ => min timer entry.1

/-- What is left to do at the current time once ticks and polls are done. -/
def attend (c : ControlLoop) : Turn × ControlLoop :=
  match c.queue, c.unseenView?, c.agenda.takeWhile (·.1 ≤ c.now) with
  | e :: queue, _, _ => { c with queue }.give (.event e)
  | [], some feed, _ => { c with seen := feed.changes }.give (.view feed.current)
  | [], none, [] => if c.ending then (.ended, c) else (.next, { c with now := c.nextTime })
  | [], none, due =>
    (.next, due.foldl (fun c entry => c.happen entry.2)
      { c with agenda := c.agenda.drop due.length })

/-- One turn: the next tick, poll, event or view that is due, or a step in time. -/
def turn (c : ControlLoop) : Turn × ControlLoop :=
  if c.scheduler.status.isTerminal then (.ended, c)
  else if c.nextTick ≤ c.now then
    let interval := c.scheduler.config.detector.checkInterval
    { c with nextTick := c.nextTick.after interval }.give .tick
  else if c.nextPoll ≤ c.now then
    { c with nextPoll := c.nextPoll.after c.pollInterval }.give .poll
  else c.attend

/-- Turns until the loop ends, but not more than a given number. -/
def turns : (limit : Nat) → ControlLoop → Option Interruption × ControlLoop
  | 0, c => (none, c)
  | limit + 1, c =>
    match c.turn with
    | (.next, c) => turns limit c
    | (.ended, c) => (none, c)
    | (.interrupted i, c) => (some i, c)

/-- The number of turns after which a loop is stopped: the number of milliseconds a clock counts in
64 bits. -/
def turnLimit : Nat := Word.limit

/-- Whether time passes between two ticks and between two polls. -/
def hasPeriods (c : ControlLoop) : Bool :=
  c.scheduler.config.detector.checkInterval ≠ .zero && c.pollInterval ≠ .zero

/-- All turns; the view that is published at the beginning comes first. -/
def start (c : ControlLoop) : Option Interruption × ControlLoop :=
  match c.views with
  | none => turns turnLimit c
  | some feed =>
    match { c with seen := feed.changes }.give (.view feed.current) with
    | (.interrupted i, c) => (some i, c)
    | (_, c) => turns turnLimit c

/-- The whole loop, abandoned at once if its timers have no period. Gives the call that ended the
loop, if it was refused or abandoned, and the loop at its end. -/
def run (c : ControlLoop) : Option Interruption × ControlLoop :=
  if c.hasPeriods then c.start else (some (.abandoned .period), c)

end ControlLoop

end AdaptiveBatch
