import AdaptiveBatch.Proofs.Scheduler.Outcomes
import AdaptiveBatch.Scheduler.Reports
import Mathlib.Data.List.Induction

/-! # Runs of a scheduler

A scheduler is driven by calls, each made at a time. Any calls may come in any order and at any
times; a call that is refused or abandoned leaves the scheduler where it stopped, and the next call
goes on from there.

* **`Call`**, **`Scheduler.after`**, **`Scheduler.answer`** — one call, the state it leads to, and
  the request for a restart that it returns;
* **`History`**, **`Scheduler.run`**, **`Scheduler.returned`** — a list of calls in their order, its
  last state, and all requests that were returned;
* **`Scheduler.ended`** — the attempts whose reported end was applied;
* **`Scheduler.Faithful`** — only returned requests are carried out, with a test for it;
* **`Scheduler.run_induction`** — what one call preserves holds after every history. -/

namespace AdaptiveBatch

/-- A call on a scheduler. -/
inductive Call
  /-- Something has happened. -/
  | event (e : Event)
  /-- It is time to look for slow attempts. -/
  | tick
  /-- It is time to look at the resources. -/
  | poll

/-- Makes a call; the request for a restart that it leads to is returned. -/
def Call.perform (now : Instant) : Call → Scheduling (Option ScaleRequest)
  | .event e => e.call now
  | .tick => do
    let _ ← Scheduler.tick now
    pure none
  | .poll => Scheduler.poll now

/-- The attempt that an event reports finished or failed, if the report is applied. -/
def Event.ended? (g : ExecutionGraph) (now : Instant) : Event → Option AttemptId
  | .finished id inputBytes outputBytes =>
    match g.finishAttempt id inputBytes outputBytes now with
    | .ok (.applied _, _) => some id
    | _ => none
  | .failed id =>
    match g.failAttempt id now with
    | .ok (.applied _, _) => some id
    | _ => none
  | _ => none

/-- The attempt that a call reports finished or failed, if the report is applied. -/
def Call.ended? (g : ExecutionGraph) (now : Instant) : Call → Option AttemptId
  | .event e => e.ended? g now
  | _ => none

/-- Whether a call carries out only requests among the given ones. -/
def Call.isKnown (known : List ScaleRequest) : Call → Bool
  | .event (.scaled request) => decide (request ∈ known)
  | _ => true

/-- Calls with their times, in the order in which they are made. -/
abbrev History := List (Instant × Call)

namespace Scheduler

/-- The state after a call, whether or not it returns. -/
def after (s : Scheduler) (now : Instant) (c : Call) : Scheduler := (c.perform now).final s

/-- The request for a restart that a call returns. -/
def answer (s : Scheduler) (now : Instant) (c : Call) : Option ScaleRequest :=
  match c.perform now s with
  | .ok request? _ => request?
  | .error _ _ => none

/-- The state after all calls. -/
def run (s : Scheduler) : History → Scheduler
  | [] => s
  | (now, c) :: rest => run (s.after now c) rest

/-- The requests for restarts that were returned. -/
def returned (s : Scheduler) : History → List ScaleRequest
  | [] => []
  | (now, c) :: rest => (s.answer now c).toList ++ returned (s.after now c) rest

/-- The attempts whose reported end was applied. -/
def ended (s : Scheduler) : History → List AttemptId
  | [] => []
  | (now, c) :: rest => (c.ended? s.graph now).toList ++ ended (s.after now c) rest

/-- Only requests that were returned before are carried out, in any order and any number of
times. -/
def Faithful (s : Scheduler) (history : History) : Prop :=
  ∀ before now request rest, history = before ++ (now, .event (.scaled request)) :: rest →
    request ∈ s.returned before

variable {s : Scheduler}

/-- The state after `before ++ rest` is the one that `rest` leads to from where `before` does. -/
theorem run_append (s : Scheduler) (before rest : History) :
    s.run (before ++ rest) = (s.run before).run rest := by
  induction before generalizing s with
  | nil => rfl
  | cons entry before ih => exact ih (s.after entry.1 entry.2)

/-- The requests returned in `before ++ rest` are those of both parts. -/
theorem returned_append (s : Scheduler) (before rest : History) :
    s.returned (before ++ rest) = s.returned before ++ (s.run before).returned rest := by
  induction before generalizing s with
  | nil => rfl
  | cons entry before ih =>
    show _ ++ (s.after entry.1 entry.2).returned (before ++ rest) = _
    rw [ih, ← List.append_assoc]
    rfl

/-- The beginning of a faithful history is faithful. -/
theorem Faithful.of_append {before rest : History} (h : s.Faithful (before ++ rest)) :
    s.Faithful before := by
  intro earlier now request later heq
  exact h earlier now request (later ++ rest) (by rw [heq, List.append_assoc]; rfl)

/-! ### A test for faithful histories -/

/-- Whether only requests are carried out that are given or returned before. -/
def isFaithful (s : Scheduler) (known : List ScaleRequest) : History → Bool
  | [] => true
  | (now, c) :: rest =>
    c.isKnown known && isFaithful (s.after now c) (known ++ (s.answer now c).toList) rest

/-- The test `isFaithful` is positive iff every request that is carried out is `known` or was
returned before. -/
theorem isFaithful_iff {known : List ScaleRequest} {history : History} :
    s.isFaithful known history = true ↔ ∀ before now request rest,
      history = before ++ (now, .event (.scaled request)) :: rest →
        request ∈ known ++ s.returned before := by
  induction history generalizing s known with
  | nil => simp [isFaithful]
  | cons entry rest ih =>
    obtain ⟨now, c⟩ := entry
    rw [isFaithful, Bool.and_eq_true, ih]
    constructor
    · rintro ⟨hknown, hrest⟩ before time request later heq
      cases before with
      | nil =>
        cases heq
        exact List.mem_append_left _ (of_decide_eq_true hknown)
      | cons first before =>
        obtain ⟨rfl, htail⟩ := List.cons.inj heq
        have hmem := hrest before time request later htail
        rwa [List.append_assoc] at hmem
    · intro h
      constructor
      · cases c with
        | tick | poll => rfl
        | event e =>
          cases e with
          | scaled request =>
            have hmem := h [] now request rest rfl
            rw [Scheduler.returned, List.append_nil] at hmem
            exact decide_eq_true hmem
          | running | progress | finished | failed | resources => rfl
      · intro before time request later heq
        have hmem := h ((now, c) :: before) time request later (by rw [heq]; rfl)
        rw [List.append_assoc]
        exact hmem

instance (s : Scheduler) (history : History) : Decidable (s.Faithful history) :=
  decidable_of_iff (s.isFaithful [] history = true) isFaithful_iff

/-! ### Induction -/

/-- What holds of a state and is preserved by every call holds after every history: `J` is an
invariant of `run`. -/
theorem run_induction {J : Scheduler → Prop} (init : J s)
    (step : ∀ t now c, J t → J (t.after now c)) (history : History) : J (s.run history) := by
  induction history generalizing s with
  | nil => exact init
  | cons entry rest ih => exact ih (step s entry.1 entry.2 init)

/-- What holds of a state and the attempts that have ended, `J`, and is preserved by every call,
holds after every history. -/
theorem run_induction_ended {J : Scheduler → List AttemptId → Prop} (init : J s [])
    (step : ∀ t ended now c, J t ended → J (t.after now c) (ended ++ (c.ended? t.graph now).toList))
    (history : History) : J (s.run history) (s.ended history) := by
  suffices h : ∀ (rest : History) (t : Scheduler) (ended : List AttemptId), J t ended →
      J (t.run rest) (ended ++ t.ended rest) from h history s [] init
  intro rest
  induction rest with
  | nil => intro t ended h; rw [Scheduler.ended, List.append_nil]; exact h
  | cons entry rest ih =>
    intro t ended h
    have hnext := ih _ _ (step t ended entry.1 entry.2 h)
    rw [List.append_assoc] at hnext
    exact hnext

/-- What holds of a state and the requests that were returned, `J`, and is preserved by every call
that carries out one of these, holds after every faithful history. -/
theorem run_induction_faithful {J : Scheduler → List ScaleRequest → Prop} (init : J s [])
    (step : ∀ t known now c, J t known →
      (∀ request, c = .event (.scaled request) → request ∈ known) →
        J (t.after now c) (known ++ (t.answer now c).toList))
    (history : History) (h : s.Faithful history) : J (s.run history) (s.returned history) := by
  induction history using List.reverseRecOn with
  | nil => exact init
  | append_singleton before entry ih =>
    obtain ⟨now, c⟩ := entry
    rw [run_append, returned_append]
    have hknown : ∀ request, c = .event (.scaled request) → request ∈ s.returned before := by
      rintro request rfl
      exact h before now request [] rfl
    have hnext := step _ _ now c (ih h.of_append) hknown
    simpa [run, returned] using hnext

end Scheduler

end AdaptiveBatch
