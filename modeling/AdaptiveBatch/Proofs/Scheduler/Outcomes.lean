import AdaptiveBatch.Scheduler.Basic

/-! # Outcomes of calls

A call on a scheduler returns, or it is refused or abandoned on the way; what it has changed until
then stays changed. A statement about a call therefore says what holds when it returns and what
holds when it ends early.

* **`Scheduling.Ensures`** — both statements about a call that is made in a given state, with one
  rule for each way of building calls;
* **`Scheduling.Ensures.forM`**, **`Scheduling.Ensures.foldlM`**, **`Scheduling.Ensures.mapM`** — the
  rules for loops, whose invariant may speak about the part of the list that is still to come;
* **`Scheduling.final`** — the state in which a call ends. -/

namespace AdaptiveBatch.Scheduling

variable {α β : Type} {x : Scheduling α} {s : Scheduler}
  {Q R : α → Scheduler → Prop} {E F : Scheduler → Prop}

/-- Made in the state `s`, the call `x` returns with `Q` or ends early with `E`. -/
def Ensures (x : Scheduling α) (s : Scheduler) (Q : α → Scheduler → Prop) (E : Scheduler → Prop) :
    Prop :=
  match x s with
  | .ok a t => Q a t
  | .error _ t => E t

/-- The state in which a call ends that is made in the state `s`, whether or not it returns. -/
def final (x : Scheduling α) (s : Scheduler) : Scheduler :=
  match x s with
  | .ok _ t => t
  | .error _ t => t

/-- A statement `P` about the state in which a call ends, however it ends, is one about
`x.final s`. -/
theorem ensures_final {P : Scheduler → Prop} :
    x.Ensures s (fun _ t => P t) P ↔ P (x.final s) := by
  unfold Ensures final
  cases x s <;> exact Iff.rfl

/-- What a call ensures may be weakened, both in `Q`, where it returns, and in `E`, where it ends
early. -/
theorem Ensures.mono (h : x.Ensures s Q E) (hQ : ∀ a t, Q a t → R a t) (hE : ∀ t, E t → F t) :
    x.Ensures s R F := by
  unfold Ensures at *
  cases hx : x s with
  | ok a t => rw [hx] at h; exact hQ a t h
  | error i t => rw [hx] at h; exact hE t h

/-- What is ensured holds of every way in which the call ends: `Q` where it returns, and `E` where
it does not. -/
theorem ensures_iff : x.Ensures s Q E ↔
    (∀ a t, x s = .ok a t → Q a t) ∧ ∀ i t, x s = .error i t → E t := by
  unfold Ensures
  cases x s <;> simp

/-- A call ensures what it does: it ends as `x s` and `x.final s` say. -/
theorem ensures_self : x.Ensures s (fun a t => x s = .ok a t) fun t => x.final s = t := by
  unfold Ensures final
  cases x s <;> rfl

/-- A call returns `a` in the state `t` exactly when it ensures so, and does not end early. -/
theorem eq_ok_iff {a : α} {t : Scheduler} :
    x s = .ok a t ↔ x.Ensures s (fun b u => b = a ∧ u = t) fun _ => False := by
  unfold Ensures
  cases x s <;> simp

/-- A call that returns `a` in the state `t` ensures what `Q` says of these. -/
theorem ensures_of_eq_ok {a : α} {t : Scheduler} (h : x s = .ok a t) :
    x.Ensures s Q E ↔ Q a t := by
  unfold Ensures
  rw [h]

/-- A call that ends early in the state `t` ensures what `E` says of that. -/
theorem ensures_of_eq_error {i : Interruption} {t : Scheduler} (h : x s = .error i t) :
    x.Ensures s Q E ↔ E t := by
  unfold Ensures
  rw [h]

/-- Two calls that end in the same way, `x s = y t`, ensure the same. -/
theorem ensures_congr {y : Scheduling α} {t : Scheduler} (h : x s = y t) :
    x.Ensures s Q E ↔ y.Ensures t Q E := by
  unfold Ensures
  rw [h]

/-- A call that returns ends in the state it returns in. -/
theorem final_of_eq_ok {a : α} {t : Scheduler} (h : x s = .ok a t) : x.final s = t := by
  unfold final
  rw [h]

/-! ## Building calls -/

/-- A call that only returns `a` ensures what `Q` says of the state it is made in. -/
@[simp] theorem ensures_pure {a : α} : (pure a : Scheduling α).Ensures s Q E ↔ Q a s := Iff.rfl

/-- A call of two parts ensures that the second part ensures `Q` where the first one has returned,
and `E` where it has not. -/
@[simp] theorem ensures_bind {f : α → Scheduling β} {Q : β → Scheduler → Prop} :
    (x >>= f).Ensures s Q E ↔ x.Ensures s (fun a t => (f a).Ensures t Q E) E := by
  show (match EStateM.bind x f s with
      | .ok b t => Q b t
      | .error _ t => E t) ↔ _
  unfold EStateM.bind Ensures
  cases x s <;> exact Iff.rfl

/-- What is known as `P` about the state in which a first part ends may be used when it has
returned. -/
theorem ensures_bind_of_final {f : α → Scheduling β} {P : Scheduler → Prop}
    {Q : β → Scheduler → Prop} (h : P (x.final s))
    (hnext : ∀ a t, x s = .ok a t → P t → (f a).Ensures t Q E) (hstop : ∀ t, P t → E t) :
    (x >>= f).Ensures s Q E := by
  rw [ensures_bind]
  refine ensures_self.mono ?_ ?_
  · intro a t ht
    rw [final_of_eq_ok ht] at h
    exact hnext a t ht h
  · intro t ht
    rw [ht] at h
    exact hstop t h

/-- A call of two parts `x >>= f` that returns has come through both. -/
theorem exists_of_bind_eq_ok {f : α → Scheduling β} {b : β} {u : Scheduler}
    (h : (x >>= f) s = .ok b u) : ∃ a t, x s = .ok a t ∧ f a t = .ok b u := by
  replace h : EStateM.bind x f s = .ok b u := h
  unfold EStateM.bind at h
  split at h
  · next a t hfirst => exact ⟨a, t, hfirst, h⟩
  · cases h

/-- Reading the state ensures what `Q` says of it twice, as the value and as the state. -/
@[simp] theorem ensures_get {Q : Scheduler → Scheduler → Prop} :
    (get : Scheduling Scheduler).Ensures s Q E ↔ Q s s := Iff.rfl

/-- A call that first reads the state goes on with what it was made in. -/
theorem get_bind_apply {f : Scheduler → Scheduling β} : (get >>= f : Scheduling β) s = f s s := rfl

/-- Changing the state by `f` ensures what `Q` says of the changed state. -/
@[simp] theorem ensures_modify {f : Scheduler → Scheduler} {Q : Unit → Scheduler → Prop} :
    (modify f : Scheduling Unit).Ensures s Q E ↔ Q () (f s) := Iff.rfl

/-- A call that ends early at once ensures `E` of the state it is made in. -/
@[simp] theorem ensures_throw {i : Interruption} :
    (throw i : Scheduling α).Ensures s Q E ↔ E s := Iff.rfl

/-- A call that is refused ensures `E` of the state it is made in. -/
@[simp] theorem ensures_refuse {e : SchedulerError} :
    (refuse e : Scheduling α).Ensures s Q E ↔ E s := Iff.rfl

/-- A call that gives up ensures `E` of the state in which the job has failed, `s.fail e now`. -/
@[simp] theorem ensures_giveUp {e : SchedulerError} {now : Instant} :
    (giveUp e now : Scheduling α).Ensures s Q E ↔ E (s.fail e now) := Iff.rfl

/-- A computation `c` ensures `Q` of its value, or `E` if it is abandoned, and leaves the state. -/
theorem ensures_checked {c : Checked α} :
    (checked c).Ensures s Q E ↔ (∀ a, c = .ok a → Q a s) ∧ ∀ o, c = .error o → E s := by
  cases c with
  | ok a => simp [checked]
  | error o => simp [checked]

/-- An operation on the graph ensures `Q` of the state with the new graph, or `E` if it fails, which
leaves the state. -/
theorem ensures_onGraph {f : ExecutionGraph → Except ExecutionError (α × ExecutionGraph)} :
    (onGraph f).Ensures s Q E ↔
      (∀ a g, f s.graph = .ok (a, g) → Q a { s with graph := g }) ∧
        ∀ e, f s.graph = .error e → E s := by
  unfold onGraph
  rw [ensures_bind, ensures_get]
  cases f s.graph with
  | ok r =>
    obtain ⟨a, g⟩ := r
    rw [ensures_bind, ensures_modify, ensures_pure]
    simp
  | error e => simp

/-- An operation on the graph that succeeds with `a` and `g` ensures `Q` of the state with the graph
`g`. -/
theorem ensures_onGraph_of_ok {f : ExecutionGraph → Except ExecutionError (α × ExecutionGraph)}
    {a : α} {g : ExecutionGraph} (h : f s.graph = .ok (a, g)) :
    (onGraph f).Ensures s Q E ↔ Q a { s with graph := g } := by
  rw [ensures_onGraph, h]
  simp

/-- A call on the controller ensures `Q` of the state with the new controller, or `E` if it is
abandoned, which leaves the state. -/
theorem ensures_onController {f : RescaleController → Checked (RescaleAction × RescaleController)}
    {Q : RescaleAction → Scheduler → Prop} :
    (onController f).Ensures s Q E ↔
      (∀ a c, f s.controller = .ok (a, c) → Q a { s with controller := c }) ∧
        ∀ o, f s.controller = .error o → E s := by
  unfold onController
  rw [ensures_bind, ensures_get, ensures_bind, ensures_checked]
  apply and_congr_left
  intro _
  constructor
  · intro h a c hc
    exact h (a, c) hc
  · intro h r hr
    exact h r.1 r.2 hr

/-! ## Loops -/

/-- A loop `l.forM f` keeps an invariant `I` that may speak about the rest of the list. -/
theorem Ensures.forM {f : β → Scheduling Unit} (I : List β → Scheduler → Prop)
    (step : ∀ b rest t, I (b :: rest) t → (f b).Ensures t (fun _ => I rest) E) :
    ∀ (l : List β) (s : Scheduler), I l s → (l.forM f).Ensures s (fun _ => I []) E
  | [], _, h => h
  | b :: rest, s, h => by
    show (f b >>= fun _ => rest.forM f).Ensures s _ E
    rw [ensures_bind]
    -- The first call leaves the invariant for the rest, and the loop goes on from there.
    exact (step b rest s h).mono (fun _ t ht => Ensures.forM I step rest t ht) fun _ ht => ht

/-- A loop `l.foldlM f a` that carries a value keeps an invariant `I` that may speak about the rest
of the list and the value. -/
theorem Ensures.foldlM {f : α → β → Scheduling α} (I : List β → α → Scheduler → Prop)
    (step : ∀ b rest a t, I (b :: rest) a t → (f a b).Ensures t (I rest) E) :
    ∀ (l : List β) (a : α) (s : Scheduler), I l a s → (l.foldlM f a).Ensures s (I []) E
  | [], _, _, h => h
  | b :: rest, a, s, h => by
    rw [List.foldlM_cons, ensures_bind]
    exact (step b rest a s h).mono (fun a t ht => Ensures.foldlM I step rest a t ht) fun _ ht => ht

/-- A loop `l.mapM f` that collects its results keeps an invariant `I` that may speak about the rest
of the list. -/
theorem Ensures.mapM {f : β → Scheduling α} (I : List β → Scheduler → Prop)
    (step : ∀ b rest t, I (b :: rest) t → (f b).Ensures t (fun _ => I rest) E) :
    ∀ (l : List β) (s : Scheduler), I l s → (l.mapM f).Ensures s (fun _ => I []) E
  | [], _, h => h
  | b :: rest, s, h => by
    rw [List.mapM_cons, ensures_bind]
    refine (step b rest s h).mono ?_ fun _ ht => ht
    intro a t ht
    rw [ensures_bind]
    exact (Ensures.mapM I step rest t ht).mono (fun _ _ hr => hr) fun _ hr => hr

end AdaptiveBatch.Scheduling
