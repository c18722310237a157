import AdaptiveBatch.Proofs.Rescale.Evaluation

/-! # Runs of the rescaling controller

A controller is told about views, finished restarts and vertices, and is polled, in any order and at
any times. Every call that returns is a turn; a call that is abandoned ends the run.

* **`RescaleController.Operation`**, **`RescaleController.perform`** — the calls on a controller;
* **`RescaleController.Turn`**, **`RescaleController.turns`** — a call with what it returned, and
  the turns of a list of calls;
* **`RescaleController.Linked`** — turns of which each goes on where the one before stopped;
* **`RescaleController.Happened`** — all that a turn can do. -/

namespace AdaptiveBatch.RescaleController

/-- A call on a controller. -/
inductive Operation
  /-- The view has changed. -/
  | resourcesChanged (view : ResourceView)
  /-- It is time to look at the resources. -/
  | poll
  /-- The restart that was asked for is carried out. -/
  | restarted
  /-- A vertex has started. -/
  | track (vertex : VertexId) (requirement : Requirement) (parallelism : Nat)
  /-- A vertex has finished. -/
  | untrack (vertex : VertexId)

/-- Makes a call. Only the calls that look at the resources return an action. -/
def perform (c : RescaleController) (now : Instant) :
    Operation → Checked (Option RescaleAction × RescaleController)
  | .resourcesChanged view => (fun (action, c') => (some action, c')) <$> c.resourcesChanged view now
  | .poll => (fun (action, c') => (some action, c')) <$> c.evaluate now
  | .restarted => (fun (action, c') => (some action, c')) <$> c.restarted now
  | .track vertex requirement parallelism => .ok (none, c.track vertex requirement parallelism)
  | .untrack vertex => .ok (none, c.untrack vertex)

/-- A call that has returned. -/
structure Turn where
  /-- When it was made. -/
  now : Instant
  /-- The call. -/
  operation : Operation
  /-- The controller before. -/
  before : RescaleController
  /-- The action that it returned. -/
  action : Option RescaleAction
  /-- The controller afterwards. -/
  after : RescaleController
  /-- This is what the call does. -/
  perform_eq : before.perform now operation = .ok (action, after)

/-- The turns of calls, up to the first abandoned one. -/
def turns (c : RescaleController) : List (Instant × Operation) → List Turn
  | [] => []
  | (now, op) :: rest =>
    match h : c.perform now op with
    | .error _ => []
    | .ok (action, c') =>
      { now, operation := op, before := c, action, after := c', perform_eq := h } :: c'.turns rest

/-- Turns of which each goes on where the one before stopped, with the first controller and the
last. -/
inductive Linked : RescaleController → List Turn → RescaleController → Prop
  /-- No turn leads nowhere. -/
  | nil (c : RescaleController) : Linked c [] c
  /-- A turn is followed by others. -/
  | cons (t : Turn) {ts : List Turn} {c : RescaleController} (rest : Linked t.after ts c) :
    Linked t.before (t :: ts) c

variable {c c' : RescaleController} {now : Instant} {ts us : List Turn}

/-- The turns that `c.turns` lists are linked: each goes on where the one before stopped. -/
theorem linked_turns (c : RescaleController) (calls : List (Instant × Operation)) :
    ∃ c', Linked c (c.turns calls) c' := by
  induction calls generalizing c with
  | nil => exact ⟨c, .nil c⟩
  | cons first rest ih =>
    obtain ⟨now, op⟩ := first
    unfold turns
    split
    · exact ⟨c, .nil c⟩
    · next action c' heq =>
      obtain ⟨last, hrest⟩ := ih c'
      exact ⟨last, .cons ⟨now, op, c, action, c', heq⟩ hrest⟩

/-- Linked turns `ts ++ us` are linked in both parts, at some controller `d` between them. -/
theorem Linked.of_append (h : Linked c (ts ++ us) c') : ∃ d, Linked c ts d ∧ Linked d us c' := by
  induction ts generalizing c with
  | nil => exact ⟨c, .nil c, h⟩
  | cons t ts ih =>
    cases h with
    | cons _ rest =>
      obtain ⟨d, hleft, hright⟩ := ih rest
      exact ⟨d, .cons t hleft, hright⟩

/-- What every turn keeps is kept by all of them: `J` is an invariant of linked turns. -/
theorem Linked.keeps {J : RescaleController → Prop} (h : Linked c ts c')
    (step : ∀ t ∈ ts, J t.before → J t.after) (init : J c) : J c' := by
  induction h with
  | nil => exact init
  | cons t rest ih =>
    rw [List.forall_mem_cons] at step
    exact ih step.2 (step.1 init)

/-- Every turn finds what the turns before it have kept, `J t.before`. -/
theorem Linked.forall_before {J : RescaleController → Prop} (h : Linked c ts c')
    (step : ∀ t ∈ ts, J t.before → J t.after) (init : J c) : ∀ t ∈ ts, J t.before := by
  induction h with
  | nil => intro t ht; cases ht
  | cons t rest ih =>
    rw [List.forall_mem_cons] at step
    exact List.forall_mem_cons.2 ⟨init, ih step.2 (step.1 init)⟩

/-! ## What a turn can do -/

/-- A turn looks at the resources, or changes the vertices. -/
inductive Happened (c : RescaleController) (now : Instant) :
    Operation → Option RescaleAction → RescaleController → Prop
  /-- A look at a new view. -/
  | resourcesChanged {view : ResourceView} {action : RescaleAction} {c' : RescaleController}
      (evaluated : { c with view }.Evaluated now action c') :
      Happened c now (.resourcesChanged view) (some action) c'
  /-- A look at the view. -/
  | poll {action : RescaleAction} {c' : RescaleController} (evaluated : c.Evaluated now action c') :
      Happened c now .poll (some action) c'
  /-- A restart that was asked for, and a look at the view. -/
  | restarted {request : ScaleRequest} {action : RescaleAction} {c' : RescaleController}
      (pending : c.phase = .evaluating request)
      (evaluated : (c.awaitRestart now).Evaluated now action c') :
      Happened c now .restarted (some action) c'
  /-- A restart that nobody has asked for. -/
  | unasked (not_pending : ∀ request, c.phase ≠ .evaluating request) :
      Happened c now .restarted (some .idle) c
  /-- A vertex has started. -/
  | track (vertex : VertexId) (requirement : Requirement) (parallelism : Nat) :
      Happened c now (.track vertex requirement parallelism) none
        (c.track vertex requirement parallelism)
  /-- A vertex has finished. -/
  | untrack (vertex : VertexId) : Happened c now (.untrack vertex) none (c.untrack vertex)

/-- A call that looks and returns has returned the action of its look. -/
theorem perform_look_eq_ok {r : Checked (RescaleAction × RescaleController)}
    {action? : Option RescaleAction}
    (h : (fun (action, c') => (some action, c')) <$> r = .ok (action?, c')) :
    ∃ action, action? = some action ∧ r = .ok (action, c') := by
  cases r with
  | error o => cases h
  | ok p => cases h; exact ⟨p.1, rfl, rfl⟩

/-- Every turn of a run is one of the cases of `Happened`. -/
theorem Turn.happened (t : Turn) : Happened t.before t.now t.operation t.action t.after := by
  obtain ⟨now, op, c, action?, c', h⟩ := t
  show Happened c now op action? c'
  cases op with
  | resourcesChanged view =>
    obtain ⟨action, rfl, hlook⟩ := perform_look_eq_ok h
    exact .resourcesChanged (evaluate_eq_ok hlook)
  | poll =>
    obtain ⟨action, rfl, hlook⟩ := perform_look_eq_ok h
    exact .poll (evaluate_eq_ok hlook)
  | restarted =>
    obtain ⟨action, rfl, hlook⟩ := perform_look_eq_ok h
    unfold RescaleController.restarted at hlook
    split at hlook
    · next request hpending => exact .restarted hpending (evaluate_eq_ok hlook)
    · next hnot => cases hlook; exact .unasked hnot
  | track vertex requirement parallelism => cases h; exact .track vertex requirement parallelism
  | untrack vertex => cases h; exact .untrack vertex

/-! ## Parts of small runs -/

/-- So many seconds after the origin. -/
def sampleTime (seconds : Nat) : Instant := .ofNanos (seconds * nanosPerSecond)

/-- So many slots of a node. -/
def sampleView (slots : Nat) : ResourceView := ResourceView.addNode ∅ "node" slots 1 1

/-- So many tasks for the source. -/
def samplePlan (parallelism : Nat) : ParallelismPlan :=
  (∅ : ParallelismPlan).insert "source" parallelism

end AdaptiveBatch.RescaleController
