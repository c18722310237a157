import AdaptiveBatch.Proofs.Rescale.Evaluation
import AdaptiveBatch.Proofs.Sizing.Requirements

/-! # Plans and requirements of a controller

A controller keeps what its vertices require and, in other maps, the plan it runs with, the plan it
waits for and the changes it asks for. All of them speak about the same vertices, and give none of
them less than it accepts.

* **`ParallelismPlan.Suits`** — a plan for exactly the vertices with a requirement;
* **`RescaleController.aim?`** — the plan the job runs with, or is to run with next;
* **`RescaleController.Plans`** — the plans of a controller are related to what it requires. This is
  kept by every operation of the controller as the scheduler uses it, for every relation that holds of
  what the controller itself puts into plans (**`Requirement.Closed`**);
* **`RescaleController.Coherent`** — no plan gives a vertex less than it accepts. -/

namespace AdaptiveBatch

/-! ## Plans -/

namespace ParallelismPlan

variable {plan changes : ParallelismPlan} {vertex : VertexId} {p : Nat}
  {requirements : Std.ExtTreeMap VertexId Requirement}

/-- An entry after another one was written: `vertex` has the new one, and every `other` what it
had. -/
theorem getElem?_insert {α : Type} (m : Std.ExtTreeMap VertexId α) (vertex other : VertexId)
    (a : α) : (m.insert vertex a)[other]? = if vertex = other then some a else m[other]? := by
  rw [Std.ExtTreeMap.getElem?_insert]
  simp only [Std.LawfulEqCmp.compare_eq_iff_eq]

/-- An entry after another one was removed: `vertex` has none, and every `other` what it had. -/
theorem getElem?_erase {α : Type} (m : Std.ExtTreeMap VertexId α) (vertex other : VertexId) :
    (m.erase vertex)[other]? = if vertex = other then none else m[other]? := by
  rw [Std.ExtTreeMap.getElem?_erase]
  simp only [Std.LawfulEqCmp.compare_eq_iff_eq]

/-- No vertex occurs twice in the list `plan.toList`. -/
theorem nodup_vertices (plan : ParallelismPlan) : (plan.toList.map (·.1)).Nodup := by
  rw [List.nodup_iff_pairwise_ne, List.pairwise_map]
  exact Std.ExtTreeMap.distinct_keys_toList.imp fun hne heq =>
    hne (Std.LawfulEqCmp.compare_eq_iff_eq.2 heq)

/-- A plan takes as many slots as its largest vertex: `plan.slots ≤ n` iff `n` bounds every
entry. -/
theorem slots_le_iff {n : Nat} : plan.slots ≤ n ↔
    ∀ (vertex : VertexId) (p : Nat), plan[vertex]? = some p → p ≤ n := by
  constructor
  · intro hle vertex p hp
    exact Nat.le_trans (le_slots hp) hle
  · intro hall
    refine largest_le_iff.2 ?_
    intro p hp
    obtain ⟨⟨vertex, q⟩, hentry, rfl⟩ := List.mem_map.1 hp
    exact hall vertex q (Std.ExtTreeMap.mem_toList_iff_getElem?_eq_some.1 hentry)

/-- The entries of the other plan prevail: `override` looks at `changes` first and at `plan`
otherwise. -/
theorem getElem?_override (plan changes : ParallelismPlan) (vertex : VertexId) :
    (plan.override changes)[vertex]? = (changes[vertex]?).or plan[vertex]? := by
  unfold override
  cases hp : changes[vertex]? with
  | some p =>
    exact Std.ExtTreeMap.getElem?_insertMany_list_of_mem (Std.LawfulEqCmp.compare_eq_iff_eq.2 rfl)
      Std.ExtTreeMap.distinct_keys_toList (Std.ExtTreeMap.mem_toList_iff_getElem?_eq_some.2 hp)
  | none =>
    -- No entry of the other plan is about the vertex, so nothing is written over its entry.
    apply Std.ExtTreeMap.getElem?_insertMany_list_of_contains_eq_false
    rw [← Bool.not_eq_true, List.contains_iff_mem, List.mem_map]
    rintro ⟨entry, hentry, rfl⟩
    rw [Std.ExtTreeMap.mem_toList_iff_getElem?_eq_some.1 hentry] at hp
    cases hp

/-- A vertex that leaves a plan and its `changes` leaves the plan that they make. -/
theorem override_erase (plan changes : ParallelismPlan) (vertex : VertexId) :
    override (plan.erase vertex) (changes.erase vertex) = (plan.override changes).erase vertex := by
  refine Std.ExtTreeMap.ext_getElem? fun {other} => ?_
  rw [getElem?_override, getElem?_erase, getElem?_erase, getElem?_erase, getElem?_override]
  split <;> rfl

/-- A vertex that enters a plan whose `changes` do not speak about it enters the plan that they
make. -/
theorem override_insert (plan : ParallelismPlan) (h : changes[vertex]? = none) (p : Nat) :
    override (plan.insert vertex p) changes = (plan.override changes).insert vertex p := by
  refine Std.ExtTreeMap.ext_getElem? fun {other} => ?_
  rw [getElem?_override, getElem?_insert, getElem?_insert, getElem?_override]
  split
  · next heq => rw [← heq, h, Option.none_or]
  · rfl

/-- The plan has a parallelism for exactly the vertices with a requirement, and each of them is
related to the requirement. -/
def Suits (related : Requirement → Nat → Prop) (plan : ParallelismPlan)
    (requirements : Std.ExtTreeMap VertexId Requirement) : Prop :=
  ∀ vertex : VertexId, Option.Rel related requirements[vertex]? plan[vertex]?

variable {related other : Requirement → Nat → Prop}

/-- A plan that suits some requirements has an entry for a vertex iff they have. -/
theorem Suits.isSome_eq (h : plan.Suits related requirements) (vertex : VertexId) :
    (plan[vertex]?).isSome = (requirements[vertex]?).isSome := by
  have hrel := h vertex
  generalize requirements[vertex]? = r? at hrel ⊢
  generalize plan[vertex]? = p? at hrel ⊢
  cases hrel with
  | some _ => rfl
  | none => rfl

/-- A planned vertex has a requirement, which is `related` to its parallelism. -/
theorem Suits.exists_requirement (h : plan.Suits related requirements)
    (hp : plan[vertex]? = some p) : ∃ r, requirements[vertex]? = some r ∧ related r p := by
  have hrel := h vertex
  rw [hp] at hrel
  cases hr : requirements[vertex]? with
  | none => rw [hr] at hrel; cases hrel
  | some r =>
    rw [hr] at hrel
    cases hrel with
    | some hrelated => exact ⟨r, rfl, hrelated⟩

/-- A vertex with a requirement is planned, with a parallelism that is `related` to it. -/
theorem Suits.exists_planned (h : plan.Suits related requirements) {r : Requirement}
    (hr : requirements[vertex]? = some r) : ∃ p, plan[vertex]? = some p ∧ related r p := by
  have hrel := h vertex
  rw [hr] at hrel
  cases hp : plan[vertex]? with
  | none => rw [hp] at hrel; cases hrel
  | some p =>
    rw [hp] at hrel
    cases hrel with
    | some hrelated => exact ⟨p, rfl, hrelated⟩

/-- Another plan for the same vertices suits the requirements if each of its entries is related to
them, given the one it replaces. -/
theorem Suits.of_forall {plan' : ParallelismPlan} (h : plan.Suits related requirements)
    (hdom : ∀ vertex : VertexId, (plan'[vertex]?).isSome = (plan[vertex]?).isSome)
    (himp : ∀ (vertex : VertexId) (r : Requirement) (p p' : Nat), requirements[vertex]? = some r →
      plan[vertex]? = some p → plan'[vertex]? = some p' → related r p → other r p') :
    plan'.Suits other requirements := by
  intro vertex
  have hsome := hdom vertex
  rw [h.isSome_eq] at hsome
  cases hr : requirements[vertex]? with
  | none =>
    rw [hr] at hsome
    have hnone : plan'[vertex]? = none :=
      Option.isNone_iff_eq_none.1 (Option.isSome_eq_false_iff.1 hsome)
    rw [hnone]
    exact .none
  | some r =>
    rw [hr] at hsome
    obtain ⟨p', hp'⟩ := Option.isSome_iff_exists.1 hsome
    obtain ⟨p, hp, hrelated⟩ := h.exists_planned hr
    rw [hp']
    exact .some (himp vertex r p p' hr hp hp' hrelated)

/-- The same plan suits the requirements in another relation, if that follows from `related` entry
by entry. -/
theorem Suits.imp (h : plan.Suits related requirements)
    (himp : ∀ (vertex : VertexId) (r : Requirement) (p : Nat), requirements[vertex]? = some r →
      plan[vertex]? = some p → related r p → other r p) : plan.Suits other requirements := by
  apply h.of_forall (fun _ => rfl)
  intro vertex r p p' hr hp hp' hrelated
  obtain rfl : p = p' := Option.some.inj (hp.symm.trans hp')
  exact himp vertex r p hr hp hrelated

/-- The requirement and the parallelism of one vertex are `related`. -/
theorem Suits.rel (h : plan.Suits related requirements) {r : Requirement}
    (hr : requirements[vertex]? = some r) (hp : plan[vertex]? = some p) : related r p := by
  obtain ⟨r', hr', hrelated⟩ := h.exists_requirement hp
  obtain rfl : r = r' := Option.some.inj (hr.symm.trans hr')
  exact hrelated

/-- A plan still suits the requirements when a vertex enters both, with a `related` pair. -/
theorem Suits.insert (h : plan.Suits related requirements) {r : Requirement} (hrp : related r p) :
    Suits related (plan.insert vertex p) (requirements.insert vertex r) := by
  intro other
  rw [getElem?_insert, getElem?_insert]
  split
  · exact .some hrp
  · exact h other

/-- A plan still suits the requirements when a vertex leaves both. -/
theorem Suits.erase (h : plan.Suits related requirements) (vertex : VertexId) :
    Suits related (plan.erase vertex) (requirements.erase vertex) := by
  intro other
  rw [getElem?_erase, getElem?_erase]
  split
  · exact .none
  · exact h other

/-- A plan with changes suits the requirements if the changes are about planned vertices and are
related to them, and so are the entries that are kept. -/
theorem Suits.override (h : plan.Suits related requirements)
    (hchanges : ∀ (vertex : VertexId) (p : Nat), changes[vertex]? = some p →
      ∃ r, requirements[vertex]? = some r ∧ other r p)
    (hkept : ∀ (vertex : VertexId) (r : Requirement) (p : Nat), requirements[vertex]? = some r →
      plan[vertex]? = some p → changes[vertex]? = none → related r p → other r p) :
    Suits other (plan.override changes) requirements := by
  refine h.of_forall ?_ ?_
  · intro vertex
    rw [getElem?_override]
    cases hc : changes[vertex]? with
    | none => rw [Option.none_or]
    | some q =>
      obtain ⟨r, hr, -⟩ := hchanges vertex q hc
      rw [h.isSome_eq, hr]
      rfl
  · intro vertex r p p' hr hp hp' hrelated
    rw [getElem?_override] at hp'
    cases hc : changes[vertex]? with
    | none =>
      rw [hc, Option.none_or, hp] at hp'
      cases hp'
      exact hkept vertex r p hr hp hc hrelated
    | some q =>
      obtain ⟨r', hr', hrelated'⟩ := hchanges vertex q hc
      rw [hc, Option.some_or] at hp'
      cases hp'
      rw [hr] at hr'
      cases hr'
      exact hrelated'

end ParallelismPlan

/-! ## Controllers -/

/-- A vertex with the requirement can run as so many tasks. -/
def Requirement.Accepts (r : Requirement) (p : Nat) : Prop := r.min ≤ p

/-- A vertex with a valid requirement does not accept `0` tasks. -/
theorem Requirement.Valid.ne_zero_of_accepts {r : Requirement} (h : r.Valid) {p : Nat}
    (hp : r.Accepts p) : p ≠ 0 :=
  Nat.ne_zero_of_lt (Nat.le_trans h.one_le_min hp)

/-- A relation between requirements and parallelisms that holds of whatever a controller plans for a
vertex on its own. -/
structure Requirement.Closed (proper : VertexId → Requirement → Prop)
    (related : Requirement → Nat → Prop) : Prop where
  /-- A new job waits for what its vertices desire. -/
  desired : ∀ (vertex : VertexId) (r : Requirement), proper vertex r → related r r.desired
  /-- A plan is reduced to the slots. -/
  reduced : ∀ (vertex : VertexId) (r : Requirement) (p slots : Nat), proper vertex r →
    r.elastic = true → related r p → related r (max (Min.min p slots) r.min)
  /-- An elastic vertex is restarted with what the slots allow. -/
  achievable : ∀ (vertex : VertexId) (r : Requirement) (slots : Nat), proper vertex r →
    r.elastic = true → related r (r.achievable slots)

/-- No vertex is planned with less than it accepts: `Accepts` is closed under what a controller
plans. -/
theorem Requirement.closed_accepts :
    Requirement.Closed (fun _ r => r.Valid) Requirement.Accepts where
  desired _ _ hr := hr.min_le_desired
  reduced _ _ _ _ _ _ _ := Nat.le_max_right _ _
  achievable _ _ slots hr _ := Requirement.min_le_achievable hr.min_le_desired slots

/-- The vertices that start with a decision, and how large. -/
def RescaleAction.plan : RescaleAction → ParallelismPlan
  | .start plan _ => plan
  | _ => ∅

namespace RescaleController

open ParallelismPlan

variable {c c' : RescaleController} {now : Instant} {action : RescaleAction} {vertex : VertexId}
  {plan : ParallelismPlan} {p : Nat} {proper : VertexId → Requirement → Prop}
  {related : Requirement → Nat → Prop}

/-- The job runs, be it with a restart asked for. -/
def isExecuting (c : RescaleController) : Bool :=
  match c.phase with
  | .running _ => true
  | .evaluating _ => true
  | _ => false

/-- The plan the job runs with, or is to run with next. -/
def aim? (c : RescaleController) : Option ParallelismPlan :=
  match c.phase with
  | .waiting _ target _ => some target
  | .running _ => some c.current
  | .evaluating request => some (c.current.override request.plan)
  | .failed .. => none

/-- All plans of the controller speak about the vertices with a requirement, and give each of them a
parallelism that is related to it. -/
structure Plans (proper : VertexId → Requirement → Prop) (related : Requirement → Nat → Prop)
    (c : RescaleController) : Prop where
  /-- Every requirement is proper. -/
  proper : ∀ (vertex : VertexId) (r : Requirement), c.requirements[vertex]? = some r →
    proper vertex r
  /-- The plan that is aimed at. -/
  aimed : ∀ plan, c.aim? = some plan → plan.Suits related c.requirements
  /-- The plan that is carried out. -/
  current : c.isExecuting = true → c.current.Suits related c.requirements

/-- All plans of the controller speak about the vertices with a requirement. -/
structure Coherent (c : RescaleController) : Prop where
  /-- Every requirement is valid. -/
  valid : ∀ (vertex : VertexId) (r : Requirement), c.requirements[vertex]? = some r → r.Valid
  /-- The plan that is aimed at. -/
  aimed : ∀ plan, c.aim? = some plan → plan.Suits Requirement.Accepts c.requirements
  /-- The plan that is carried out. -/
  current : c.isExecuting = true → c.current.Suits Requirement.Accepts c.requirements

/-- A controller is `Coherent` iff all its plans are related by `Accepts` to valid requirements. -/
theorem coherent_iff : c.Coherent ↔ c.Plans (fun _ r => r.Valid) Requirement.Accepts :=
  ⟨fun h => ⟨h.valid, h.aimed, h.current⟩, fun h => ⟨h.proper, h.aimed, h.current⟩⟩

/-- A new job waits for what its vertices desire, so its plans are `related` to the requirements. -/
theorem Plans.ofRequirements (hclosed : Requirement.Closed proper related)
    (settings : RescaleConfig) {requirements : Std.ExtTreeMap VertexId Requirement}
    (h : ∀ (vertex : VertexId) (r : Requirement), requirements[vertex]? = some r → proper vertex r) :
    (ofRequirements settings requirements now).Plans proper related where
  proper := h
  aimed plan haim := by
    cases haim
    intro vertex
    show Option.Rel _ requirements[vertex]? _
    rw [Std.ExtTreeMap.getElem?_map]
    cases hr : requirements[vertex]? with
    | none => exact .none
    | some r => exact .some (hclosed.desired vertex r (h vertex r hr))
  current := Bool.noConfusion

/-- The controller of a new job with valid requirements is `Coherent`. -/
theorem Coherent.ofRequirements (settings : RescaleConfig)
    {requirements : Std.ExtTreeMap VertexId Requirement}
    (h : ∀ (vertex : VertexId) (r : Requirement), requirements[vertex]? = some r → r.Valid) :
    (ofRequirements settings requirements now).Coherent :=
  coherent_iff.2 (.ofRequirements Requirement.closed_accepts settings h)

/-- The plans do not depend on the `view`. -/
theorem Plans.withView (h : c.Plans proper related) (view : ResourceView) :
    ({ c with view } : RescaleController).Plans proper related :=
  ⟨h.proper, h.aimed, h.current⟩

/-- The controller stays `Coherent` with another `view`. -/
theorem Coherent.withView (h : c.Coherent) (view : ResourceView) :
    ({ c with view } : RescaleController).Coherent :=
  coherent_iff.2 ((coherent_iff.1 h).withView view)

/-! ### Vertices -/

/-- A job runs on when one of its vertices is untracked. -/
theorem isExecuting_untrack : (c.untrack vertex).isExecuting = c.isExecuting := by
  unfold isExecuting untrack
  cases c.phase <;> rfl

/-- Changes are asked for of vertices with a requirement: the `request` says nothing about a vertex
without one. -/
theorem Plans.pending (h : c.Plans proper related) {request : ScaleRequest}
    (hphase : c.phase = .evaluating request) (hnew : c.requirements[vertex]? = none) :
    request.plan[vertex]? = none := by
  have haim : c.aim? = some (c.current.override request.plan) := by rw [aim?, hphase]
  have hsome := (h.aimed _ haim).isSome_eq vertex
  rw [hnew, getElem?_override] at hsome
  cases hp : request.plan[vertex]? with
  | none => rfl
  | some p => rw [hp] at hsome; cases hsome

/-- A vertex that was not tracked before enters the plan that is aimed at, with its parallelism
`p`. -/
theorem Plans.aim?_track (h : c.Plans proper related) (hexecuting : c.isExecuting = true)
    (hnew : c.requirements[vertex]? = none) (r : Requirement) (p : Nat) :
    (c.track vertex r p).aim? = c.aim?.map (·.insert vertex p) := by
  unfold aim? track
  cases hphase : c.phase with
  | waiting since target timer => rw [isExecuting, hphase] at hexecuting; cases hexecuting
  | running since => rfl
  | evaluating request =>
    exact congrArg some (override_insert c.current (h.pending hphase hnew) p)
  | failed available required => rfl

/-- A vertex that is untracked leaves the plan that is aimed at. -/
theorem aim?_untrack : (c.untrack vertex).aim? = c.aim?.map (·.erase vertex) := by
  unfold aim? untrack
  cases c.phase with
  | waiting since target timer => rfl
  | running since => rfl
  | evaluating request => exact congrArg some (override_erase c.current request.plan vertex)
  | failed available required => rfl

/-- Tracking a vertex of a running job, with a requirement that is proper and `related` to `p`,
keeps the plans related. -/
theorem Plans.track (h : c.Plans proper related) (hexecuting : c.isExecuting = true)
    (hnew : c.requirements[vertex]? = none) {r : Requirement} (hr : proper vertex r)
    (hrp : related r p) : (c.track vertex r p).Plans proper related where
  proper other r' hr' := by
    change (c.requirements.insert vertex r)[other]? = some r' at hr'
    rw [getElem?_insert] at hr'
    split at hr'
    · next heq => cases hr'; exact heq ▸ hr
    · exact h.proper other r' hr'
  aimed plan haim := by
    rw [h.aim?_track hexecuting hnew] at haim
    obtain ⟨old, hold, rfl⟩ := Option.map_eq_some_iff.1 haim
    exact (h.aimed old hold).insert hrp
  current _ := (h.current hexecuting).insert hrp

/-- Tracking a vertex of a running job with at least `r.min` tasks keeps the controller
`Coherent`. -/
theorem Coherent.track (h : c.Coherent) (hexecuting : c.isExecuting = true)
    (hnew : c.requirements[vertex]? = none) {r : Requirement} (hr : r.Valid) (hle : r.min ≤ p) :
    (c.track vertex r p).Coherent :=
  coherent_iff.2 ((coherent_iff.1 h).track hexecuting hnew hr hle)

/-- Untracking a vertex keeps the plans related. -/
theorem Plans.untrack (h : c.Plans proper related) (vertex : VertexId) :
    (c.untrack vertex).Plans proper related where
  proper other r hr := by
    change (c.requirements.erase vertex)[other]? = some r at hr
    rw [getElem?_erase] at hr
    split at hr
    · cases hr
    · exact h.proper other r hr
  aimed plan haim := by
    rw [aim?_untrack] at haim
    obtain ⟨old, hold, rfl⟩ := Option.map_eq_some_iff.1 haim
    exact (h.aimed old hold).erase vertex
  current hexecuting := (h.current (isExecuting_untrack.symm.trans hexecuting)).erase vertex

/-- Untracking a vertex keeps the controller `Coherent`. -/
theorem Coherent.untrack (h : c.Coherent) (vertex : VertexId) : (c.untrack vertex).Coherent :=
  coherent_iff.2 ((coherent_iff.1 h).untrack vertex)

/-! ### Looks at the resources -/

/-- The slots without which nothing can run, `c.requiredSlots`, suffice for what any vertex
accepts. -/
theorem min_le_requiredSlots {r : Requirement} (hr : c.requirements[vertex]? = some r) :
    r.min ≤ c.requiredSlots :=
  le_largest (List.mem_map.2
    ⟨(vertex, r), Std.ExtTreeMap.mem_toList_iff_getElem?_eq_some.2 hr, rfl⟩)

/-- A reduced plan lowers elastic vertices only, to what the slots allow but not below `r.min`. -/
theorem getElem?_reduce (c : RescaleController) (target : ParallelismPlan) (vertex : VertexId) :
    (c.reduce target)[vertex]? = (target[vertex]?).map fun p =>
      match c.requirements[vertex]? with
      | some r => if r.elastic then max (min p c.view.slotCount) r.min else p
      | none => p := by
  unfold reduce
  exact Std.ExtTreeMap.getElem?_map

/-- A reduced plan suits the same requirements, in any relation `other` that the reduced entries
satisfy. -/
theorem suits_reduce {other : Requirement → Nat → Prop} {target : ParallelismPlan}
    (h : target.Suits related c.requirements)
    (himp : ∀ (vertex : VertexId) (r : Requirement) (p : Nat), c.requirements[vertex]? = some r →
      related r p → other r (if r.elastic then max (min p c.view.slotCount) r.min else p)) :
    (c.reduce target).Suits other c.requirements := by
  refine h.of_forall ?_ ?_
  · intro vertex
    rw [getElem?_reduce, Option.isSome_map]
  · intro vertex r p p' hr hp hp' hrelated
    rw [getElem?_reduce, hp, Option.map_some, hr] at hp'
    cases hp'
    exact himp vertex r p hr hrelated

/-- A change gives an elastic vertex what the slots allow, `r.achievable`, and is one: that differs
from what the vertex has. -/
theorem getElem?_changes_eq_some_iff : c.changes[vertex]? = some p ↔
    ∃ r q, c.requirements[vertex]? = some r ∧ c.current[vertex]? = some q ∧ r.elastic = true ∧
      p = r.achievable c.view.slotCount ∧ p ≠ q := by
  unfold changes
  rw [Std.ExtTreeMap.getElem?_filterMap']
  cases hq : c.current[vertex]? with
  | none => simp
  | some q =>
    cases hr : c.requirements[vertex]? with
    | none => simp
    | some r =>
      simp only [Option.bind_some, Option.ite_none_right_eq_some, Bool.and_eq_true, bne_iff_ne,
        Option.some.injEq]
      constructor
      · rintro ⟨⟨helastic, hne⟩, rfl⟩
        exact ⟨r, q, rfl, rfl, helastic, rfl, hne⟩
      · rintro ⟨_, _, rfl, rfl, helastic, rfl, hne⟩
        exact ⟨⟨helastic, hne⟩, rfl⟩

/-- No change takes from a vertex what it needs: each vertex `Accepts` what is asked for. -/
theorem Coherent.exists_accepts_changes (h : c.Coherent) (hp : c.changes[vertex]? = some p) :
    ∃ r, c.requirements[vertex]? = some r ∧ r.Accepts p := by
  obtain ⟨r, -, hr, -, -, rfl, -⟩ := getElem?_changes_eq_some_iff.1 hp
  exact ⟨r, hr, Requirement.min_le_achievable (h.valid vertex r hr).min_le_desired _⟩

/-- A look keeps the plans related, whatever it decides, if `related` is closed. -/
theorem Plans.evaluated (h : c.Plans proper related) (hclosed : Requirement.Closed proper related)
    (heval : c.Evaluated now action c') : c'.Plans proper related := by
  have hwaiting {since : Instant} {target : ParallelismPlan} {old : Option Stabilization}
      (hphase : c.phase = .waiting since target old) : target.Suits related c.requirements :=
    h.aimed target (by rw [aim?, hphase])
  cases heval with
  | idle => exact h
  | wait waiting =>
    refine ⟨h.proper, ?_, Bool.noConfusion⟩
    intro plan haim
    cases haim
    exact hwaiting waiting
  | start waiting fits =>
    have hserves := hwaiting waiting
    refine ⟨h.proper, ?_, fun _ => hserves⟩
    intro plan haim
    cases haim
    exact hserves
  | @startReduced since target old waiting enough =>
    have hserves : (c.reduce target).Suits related c.requirements := by
      apply suits_reduce (hwaiting waiting)
      intro vertex r p hr hrelated
      -- Only an elastic vertex is reduced.
      split
      · next helastic => exact hclosed.reduced vertex r p _ (h.proper vertex r hr) helastic hrelated
      · exact hrelated
    refine ⟨h.proper, ?_, fun _ => hserves⟩
    intro plan haim
    cases haim
    exact hserves
  | insufficient waiting short =>
    refine ⟨h.proper, ?_, Bool.noConfusion⟩
    intro plan haim
    cases haim
  | scale running changes due =>
    have hserves : c.current.Suits related c.requirements :=
      h.current (by rw [isExecuting, running])
    refine ⟨h.proper, ?_, fun _ => hserves⟩
    intro plan haim
    cases haim
    -- The changes are laid over the plan that the job still runs with.
    apply hserves.override
    · intro vertex p hp
      obtain ⟨r, -, hr, -, helastic, rfl, -⟩ := getElem?_changes_eq_some_iff.1 hp
      exact ⟨r, hr, hclosed.achievable vertex r _ (h.proper vertex r hr) helastic⟩
    · intro _ _ _ _ _ _ hrelated
      exact hrelated

/-- A look keeps the controller `Coherent`, whatever it decides. -/
theorem Coherent.evaluated (h : c.Coherent) (heval : c.Evaluated now action c') : c'.Coherent :=
  coherent_iff.2 ((coherent_iff.1 h).evaluated Requirement.closed_accepts heval)

/-- A look starts the job with `action.plan`, or it starts nothing and the job runs after it only if
it did before. -/
theorem Evaluated.starts_or_not (h : c.Evaluated now action c') :
    (c'.isExecuting = true ∧ c'.current = action.plan ∧ c'.aim? = some action.plan) ∨
      action.plan = ∅ ∧
        (c'.isExecuting = true → c.isExecuting = true ∧ c'.current = c.current) := by
  cases h with
  | idle => exact Or.inr ⟨rfl, fun hexecuting => ⟨hexecuting, rfl⟩⟩
  | wait waiting => exact Or.inr ⟨rfl, Bool.noConfusion⟩
  | start waiting fits => exact Or.inl ⟨rfl, rfl, rfl⟩
  | startReduced waiting enough => exact Or.inl ⟨rfl, rfl, rfl⟩
  | insufficient waiting short => exact Or.inr ⟨rfl, Bool.noConfusion⟩
  | scale running changes due =>
    refine Or.inr ⟨rfl, ?_⟩
    intro _
    exact ⟨by rw [isExecuting, running], rfl⟩

/-- The plan that was asked for is the one that is waited for: `aim?` is the same before and
after. -/
theorem aim?_awaitRestart (c : RescaleController) (now : Instant) :
    (c.awaitRestart now).aim? = c.aim? := by
  unfold awaitRestart
  split
  · next request hphase => rw [aim?, aim?, hphase]
  · rfl

/-- Waiting for a restart changes no requirement. -/
theorem requirements_awaitRestart (c : RescaleController) (now : Instant) :
    (c.awaitRestart now).requirements = c.requirements := by
  unfold awaitRestart
  split <;> rfl

/-- A job that waits for a restart does not run; so if it still does, nothing was asked for and
nothing changed. -/
theorem isExecuting_of_awaitRestart (h : (c.awaitRestart now).isExecuting = true) :
    c.isExecuting = true ∧ c.awaitRestart now = c := by
  unfold awaitRestart at h ⊢
  split
  · next request hphase => rw [hphase] at h; cases h
  · next hphase =>
    split at h
    · next request heq => exact absurd heq (hphase request)
    · exact ⟨h, rfl⟩

/-- Waiting for a restart keeps the plans related. -/
theorem Plans.awaitRestart (h : c.Plans proper related) (now : Instant) :
    (c.awaitRestart now).Plans proper related := by
  refine ⟨?_, ?_, ?_⟩
  · rw [requirements_awaitRestart]
    exact h.proper
  · rw [requirements_awaitRestart, aim?_awaitRestart]
    exact h.aimed
  · intro hexecuting
    obtain ⟨hold, heq⟩ := isExecuting_of_awaitRestart hexecuting
    rw [heq]
    exact h.current hold

/-- Waiting for a restart keeps the controller `Coherent`. -/
theorem Coherent.awaitRestart (h : c.Coherent) (now : Instant) : (c.awaitRestart now).Coherent :=
  coherent_iff.2 ((coherent_iff.1 h).awaitRestart now)

/-- The vertices that a look starts with `plan` are those with a requirement, and each starts with a
parallelism that is `related` to it. -/
theorem Plans.started (h : c.Plans proper related) (hclosed : Requirement.Closed proper related)
    {reduced : Bool} (heval : c.Evaluated now (.start plan reduced) c') :
    plan.Suits related c.requirements := by
  have haim : c'.aim? = some plan := by cases heval <;> rfl
  rw [← heval.frame.2.2]
  exact (h.evaluated hclosed heval).aimed plan haim

/-- One of the vertices that a look starts has a requirement, which is `related` to its
parallelism. -/
theorem Plans.exists_requirement (h : c.Plans proper related)
    (hclosed : Requirement.Closed proper related) (heval : c.Evaluated now action c')
    (hp : action.plan[vertex]? = some p) : ∃ r, c.requirements[vertex]? = some r ∧ related r p := by
  cases action with
  | start plan reduced => exact (h.started hclosed heval).exists_requirement hp
  | idle | scale | insufficient => simp [RescaleAction.plan] at hp

/-- One of the vertices that a look starts has a requirement and `Accepts` its parallelism. -/
theorem Coherent.exists_requirement (h : c.Coherent) (heval : c.Evaluated now action c')
    (hp : action.plan[vertex]? = some p) : ∃ r, c.requirements[vertex]? = some r ∧ r.Accepts p :=
  (coherent_iff.1 h).exists_requirement Requirement.closed_accepts heval hp

end RescaleController

end AdaptiveBatch
