import AdaptiveBatch.Execution.Graph

/-! # Attempts in the execution graph

What every operation on the execution graph does to the attempt behind an identity. An attempt is
found through its task, so each law is stated for a task first and then for the graph.

* **`Task.IsActive`**, **`ExecutionGraph.IsActive`** — the attempt with a number, or with an
  identity, holds a slot;
* **`ExecutionGraph.Awaits`** — a report about the attempt would be applied;
* **`ExecutionGraph.Issued`** — the identity is or was in use, so it is never given again;
* **`ExecutionGraph.EachTask`** — a property of every task;
* **`ExecutionGraph.regenerate`**, **`ExecutionGraph.push`** — a new generation and a new attempt
  without the checks that come before them. -/

namespace AdaptiveBatch

/-- Where one element of a list is changed by `f`, all are related by `R` to the old ones if that
one is. -/
theorem exists_getElem?_modify {α : Type} {R : α → α → Prop} {l : List α} {f : α → α} {i k : Nat}
    {a : α} (refl : ∀ a, R a a) (hf : ∀ a ∈ l[k]?, R a (f a)) (ha : l[i]? = some a) :
    ∃ b, (l.modify k f)[i]? = some b ∧ R a b := by
  rw [List.getElem?_modify, ha]
  by_cases hki : k = i
  · subst hki
    exact ⟨f a, by simp, hf a ha⟩
  · exact ⟨a, by simp [hki], refl a⟩

/-! ## Tasks -/

namespace Task

variable {t : Task} {a : Attempt} {n m : Nat}

/-- The attempt with a number holds a slot. -/
def IsActive (t : Task) (n : Nat) : Prop := ∃ a ∈ t.attempts[n]?, a.isActive = true

/-- The task with one more attempt. -/
def push (t : Task) (a : Attempt) : Task := { t with attempts := t.attempts ++ [a] }

/-- The attempt added by `push` gets the next number, `t.attempts.length`, and the others keep
theirs. -/
theorem getElem?_push :
    (t.push a).attempts[n]? = if n = t.attempts.length then some a else t.attempts[n]? := by
  unfold push
  rw [List.getElem?_append]
  rcases Nat.lt_trichotomy n t.attempts.length with h | h | h
  · rw [if_pos h, if_neg (Nat.ne_of_lt h)]
  · subst h; simp
  · rw [if_neg (Nat.not_lt.2 (Nat.le_of_lt h)), if_neg (Nat.ne_of_gt h)]
    rw [List.getElem?_eq_none (by simp; omega), List.getElem?_eq_none (Nat.le_of_lt h)]

/-- After `push` the active attempts are the old ones, and the new one if it is active. -/
theorem isActive_push :
    (t.push a).IsActive n ↔ t.IsActive n ∨ n = t.attempts.length ∧ a.isActive = true := by
  unfold IsActive
  rw [getElem?_push]
  by_cases h : n = t.attempts.length
  · subst h; simp
  · simp [h]

/-- A change of the attempt number `n` is seen at `n` only. -/
theorem getElem?_modifyAttempt (f : Attempt → Attempt) :
    (t.modifyAttempt n f).attempts[m]? =
      if n = m then (t.attempts[m]?).map f else t.attempts[m]? := by
  unfold modifyAttempt
  rw [List.getElem?_modify]
  split <;> simp

/-- After a change `f` of the attempt number `n` every other attempt is active as before, and that
one if its image under `f` is. -/
theorem isActive_modifyAttempt (f : Attempt → Attempt) : (t.modifyAttempt n f).IsActive m ↔
    if n = m then ∃ a ∈ t.attempts[m]?, (f a).isActive = true else t.IsActive m := by
  unfold IsActive
  rw [getElem?_modifyAttempt]
  split
  · cases t.attempts[m]? <;> simp
  · exact Iff.rfl

/-- A step that ends an attempt, `(f a).isActive = false`, takes the slot of the attempt number `n`
and no other. -/
theorem isActive_modifyAttempt_of_ends {f : Attempt → Attempt} (hf : ∀ a, (f a).isActive = false) :
    (t.modifyAttempt n f).IsActive m ↔ t.IsActive m ∧ m ≠ n := by
  rw [isActive_modifyAttempt]
  by_cases h : n = m
  · subst h; simp [hf]
  · simp [h, Ne.symm h]

/-- No attempt of a task is active once one of them has won. -/
theorem not_isActive_win (inputBytes outputBytes : Option Nat) (now : Instant) :
    ¬(t.win n inputBytes outputBytes now).IsActive m := by
  rintro ⟨a, ha, hactive⟩
  have hmem : a ∈ (t.win n inputBytes outputBytes now).activeAttempts :=
    mem_activeAttempts.2 ⟨List.mem_of_getElem? ha, hactive⟩
  rw [activeAttempts_win] at hmem
  exact List.not_mem_nil hmem

end Task

/-! ## Looking up -/

namespace ExecutionGraph

variable {g : ExecutionGraph} {id other : AttemptId} {vertex : VertexId} {k : Nat}
  {f : Task → Task} {now : Instant}

/-- The task that `id` names is found in the current generation, and only if `id.generation` is its
number. -/
theorem taskOf?_eq_some_iff {t : Task} : g.taskOf? id = some t ↔
    ∃ v, g.get? id.vertex = some v ∧ v.generation = id.generation ∧
      v.tasks[id.subtask]? = some t := by
  unfold taskOf?
  cases g.get? id.vertex with
  | none => simp
  | some v => by_cases h : v.generation = id.generation <;> simp [h]

/-- There is one task at a place: the generation at `vertex` and its task `k` are determined. -/
theorem task_unique {v w : VertexExecution} {t t' : Task} (hv : g.get? vertex = some v)
    (ht : v.tasks[k]? = some t) (hw : g.get? vertex = some w) (ht' : w.tasks[k]? = some t') :
    v = w ∧ t = t' := by
  obtain rfl : v = w := Option.some.inj (hv.symm.trans hw)
  exact ⟨rfl, Option.some.inj (ht.symm.trans ht')⟩

/-- In one place there are only attempts of the same task and generation, so `taskOf?` finds the
same for identities that agree on the vertex and the index. -/
theorem taskOf?_unique {t t' : Task} (ht : g.taskOf? id = some t) (ht' : g.taskOf? other = some t')
    (hplace : id.vertex = other.vertex ∧ id.subtask = other.subtask) :
    t = t' ∧ id.generation = other.generation := by
  obtain ⟨v, hv, hgen, htask⟩ := taskOf?_eq_some_iff.1 ht
  obtain ⟨w, hw, hgen', htask'⟩ := taskOf?_eq_some_iff.1 ht'
  rw [← hplace.1] at hw
  rw [← hplace.2] at htask'
  obtain ⟨rfl, rfl⟩ := task_unique hv htask hw htask'
  exact ⟨rfl, hgen.symm.trans hgen'⟩

/-- The task of a vertex with an index, in the current generation. -/
def taskAt? (g : ExecutionGraph) (vertex : VertexId) (k : Nat) : Option Task :=
  (g.get? vertex).bind (·.tasks[k]?)

/-- The task at a place is entry `k` of the `tasks` of the current generation. -/
theorem taskAt?_eq_some_iff {t : Task} : g.taskAt? vertex k = some t ↔
    ∃ v, g.get? vertex = some v ∧ v.tasks[k]? = some t := by
  unfold taskAt?
  exact Option.bind_eq_some_iff

/-- The attempt that `id` names is entry `id.number` among the attempts of the task that it
names. -/
theorem attempt?_eq_some_iff {a : Attempt} : g.attempt? id = some a ↔
    ∃ t, g.taskOf? id = some t ∧ t.attempts[id.number]? = some a := by
  unfold attempt?
  cases g.taskOf? id <;> simp

/-- The attempt with an identity of the current generation holds a slot. -/
def IsActive (g : ExecutionGraph) (id : AttemptId) : Prop :=
  ∃ a ∈ g.attempt? id, a.isActive = true

/-- An attempt is active in the graph iff it is active in the task that `taskOf?` finds. -/
theorem isActive_iff : g.IsActive id ↔ ∃ t ∈ g.taskOf? id, t.IsActive id.number := by
  unfold IsActive attempt?
  cases g.taskOf? id with
  | none => simp
  | some t => simp [Task.IsActive]

/-- The attempt holds a slot and its task is not finished: a report about it is applied. -/
def Awaits (g : ExecutionGraph) (id : AttemptId) : Prop :=
  ∃ t ∈ g.taskOf? id, t.IsActive id.number ∧ t.winner = none

/-- An attempt that is awaited is active. -/
theorem Awaits.isActive (h : g.Awaits id) : g.IsActive id := by
  obtain ⟨t, ht, hactive, -⟩ := h
  exact isActive_iff.2 ⟨t, ht, hactive⟩

/-- The identity belongs to an earlier generation, or to an attempt of the current one. -/
def Issued (g : ExecutionGraph) (id : AttemptId) : Prop :=
  ∃ v ∈ g.get? id.vertex, id.generation < v.generation ∨ (g.attempt? id).isSome

/-- An attempt that is active has been issued. -/
theorem IsActive.issued (h : g.IsActive id) : g.Issued id := by
  obtain ⟨a, ha, -⟩ := h
  obtain ⟨t, ht, -⟩ := attempt?_eq_some_iff.1 ha
  obtain ⟨v, hv, -⟩ := taskOf?_eq_some_iff.1 ht
  exact ⟨v, hv, Or.inr (Option.isSome_of_mem ha)⟩

/-! ## Changing a task -/

/-- A change of the task `k` of `vertex` is seen at `vertex` only, as a `List.modify` of its
`tasks`. -/
theorem get?_modifyTask (other : VertexId) : (g.modifyTask vertex k f).get? other =
    if vertex = other then (g.get? other).map fun v => { v with tasks := v.tasks.modify k f }
    else g.get? other :=
  get?_modifyVertex g vertex other _

/-- A changed task is related to the old one, so the generations are: for a reflexive `R` only the
generation of `vertex` needs an argument. -/
theorem exists_get?_modifyTask {R : VertexExecution → VertexExecution → Prop} {v : VertexExecution}
    {other : VertexId} (refl : ∀ v, R v v) (hv : g.get? other = some v)
    (hf : vertex = other → R v { v with tasks := v.tasks.modify k f }) :
    ∃ v', (g.modifyTask vertex k f).get? other = some v' ∧ R v v' := by
  rw [get?_modifyTask, hv]
  by_cases h : vertex = other
  · rw [if_pos h]
    exact ⟨_, rfl, hf h⟩
  · rw [if_neg h]
    exact ⟨v, rfl, refl v⟩

/-- A change of the task `k` of `vertex` is seen by the identities of that place only. -/
theorem taskOf?_modifyTask : (g.modifyTask vertex k f).taskOf? id =
    if vertex = id.vertex ∧ k = id.subtask then (g.taskOf? id).map f else g.taskOf? id := by
  unfold taskOf?
  rw [get?_modifyTask]
  by_cases hv : vertex = id.vertex
  · cases g.get? id.vertex with
    | none => simp [hv]
    | some v =>
      by_cases hk : k = id.subtask
      · by_cases hg : v.generation = id.generation <;> simp [hv, hk, hg]
      · simp [hv, hk]
  · simp [hv]

/-- A change of the task `k` of `vertex` is seen at that place only. -/
theorem taskAt?_modifyTask (other : VertexId) (i : Nat) :
    (g.modifyTask vertex k f).taskAt? other i =
      if vertex = other ∧ k = i then (g.taskAt? other i).map f else g.taskAt? other i := by
  unfold taskAt?
  rw [get?_modifyTask]
  by_cases hv : vertex = other
  · cases g.get? other with
    | none => simp [hv]
    | some v => by_cases hk : k = i <;> simp [hv, hk]
  · simp [hv]

/-- A property of every task of the current generations. -/
def EachTask (g : ExecutionGraph) (P : Task → Prop) : Prop :=
  ∀ (vertex : VertexId) (v : VertexExecution) (k : Nat) (t : Task),
    g.get? vertex = some v → v.tasks[k]? = some t → P t

/-- Only the changed task `f t` has to be looked at to keep a property `P` of every task. -/
theorem EachTask.modifyTask {P : Task → Prop} (h : g.EachTask P)
    (hf : ∀ v t, g.get? vertex = some v → v.tasks[k]? = some t → P (f t)) :
    (g.modifyTask vertex k f).EachTask P := by
  intro w v i t hv ht
  rw [get?_modifyTask] at hv
  split at hv
  · next hw =>
    subst hw
    obtain ⟨v', hv', rfl⟩ := Option.map_eq_some_iff.1 hv
    rw [List.getElem?_modify] at ht
    split at ht
    · next hki =>
      subst hki
      obtain ⟨t', ht', rfl⟩ := Option.map_eq_some_iff.1 ht
      exact hf v' t' hv' ht'
    · exact h _ v' i t hv' (by simpa using ht)
  · exact h w v i t hv ht

/-- After a change of the task `k` of `vertex`, the attempts of that place are active if they are in
the changed task, and all others as before. -/
theorem isActive_modifyTask : (g.modifyTask vertex k f).IsActive id ↔
    if vertex = id.vertex ∧ k = id.subtask then ∃ t ∈ g.taskOf? id, (f t).IsActive id.number
    else g.IsActive id := by
  rw [isActive_iff, taskOf?_modifyTask]
  split
  · cases g.taskOf? id <;> simp
  · exact isActive_iff.symm

/-- Graphs in which `get?` finds the same generations are equal. -/
theorem ext_get? {g' : ExecutionGraph} (h : ∀ vertex, g.get? vertex = g'.get? vertex) : g = g' :=
  ExecutionGraph.ext (Std.ExtTreeMap.ext_getElem? fun {vertex} => h vertex)

/-- Two changes of a task are one, by `f' ∘ f`. -/
theorem modifyTask_modifyTask (f' : Task → Task) :
    (g.modifyTask vertex k f).modifyTask vertex k f' = g.modifyTask vertex k (f' ∘ f) := by
  apply ext_get?
  intro other
  rw [get?_modifyTask, get?_modifyTask, get?_modifyTask]
  by_cases h : vertex = other
  · simp [h, Function.comp_def, List.modify_modify_eq]
  · simp [h]

/-- Only what a change does to the task at that place matters: `f` and `f'` may differ elsewhere. -/
theorem modifyTask_congr {f' : Task → Task} (h : ∀ v t, g.get? vertex = some v →
    v.tasks[k]? = some t → f t = f' t) : g.modifyTask vertex k f = g.modifyTask vertex k f' := by
  apply ext_get?
  intro other
  rw [get?_modifyTask, get?_modifyTask]
  by_cases hother : vertex = other
  · subst hother
    cases hv : g.get? vertex with
    | none => rfl
    | some v =>
      -- The two changes agree on the one task that they change.
      have htasks : v.tasks.modify k f = v.tasks.modify k f' := by
        apply List.ext_getElem?
        intro i
        rw [List.getElem?_modify, List.getElem?_modify]
        by_cases hi : k = i
        · subst hi
          cases ht : v.tasks[k]? with
          | none => rfl
          | some t => simp [h v t hv ht]
        · simp [hi]
      simp [htasks]
  · simp [hother]

/-- A change of a task that loses no attempt forgets no identity: what is `Issued` stays so. -/
theorem Issued.modifyTask (h : g.Issued id)
    (hf : ∀ t, t.attempts.length ≤ (f t).attempts.length) :
    (g.modifyTask vertex k f).Issued id := by
  obtain ⟨v, hv, hid⟩ := h
  -- The generation of the vertex stays.
  have hnew : ∃ w ∈ (g.modifyTask vertex k f).get? id.vertex, w.generation = v.generation := by
    rw [get?_modifyTask]
    split
    · exact ⟨{ v with tasks := v.tasks.modify k f }, by rw [hv]; rfl, rfl⟩
    · exact ⟨v, hv, rfl⟩
  obtain ⟨w, hw, hgen⟩ := hnew
  refine ⟨w, hw, hid.imp (hgen ▸ ·) ?_⟩
  intro hsome
  -- An attempt of the current generation is still found by its number.
  obtain ⟨a, ha⟩ := Option.isSome_iff_exists.1 hsome
  obtain ⟨t, ht, hget⟩ := attempt?_eq_some_iff.1 ha
  have hlt : id.number < t.attempts.length := (List.getElem?_eq_some_iff.1 hget).1
  unfold attempt?
  rw [taskOf?_modifyTask, ht]
  split
  · simpa using Nat.lt_of_lt_of_le hlt (hf t)
  · simpa using hlt

/-! ## New attempts -/

/-- The graph with one more attempt, which belongs where its identity says. -/
def push (g : ExecutionGraph) (a : Attempt) : ExecutionGraph :=
  g.modifyTask a.id.vertex a.id.subtask (·.push a)

/-- The identity is the next one of a task of the current generation. -/
def IsNext (g : ExecutionGraph) (id : AttemptId) : Prop :=
  ∃ t ∈ g.taskOf? id, id.number = t.attempts.length

/-- The next identity of a task has not been issued before. -/
theorem IsNext.not_issued (h : g.IsNext id) : ¬g.Issued id := by
  rintro ⟨v, hv, hid⟩
  obtain ⟨t, ht, hnumber⟩ := h
  obtain ⟨w, hw, hgen, -⟩ := taskOf?_eq_some_iff.1 ht
  obtain rfl : v = w := Option.some.inj (hv.symm.trans hw)
  rcases hid with hlt | hsome
  · omega
  · obtain ⟨a, ha⟩ := Option.isSome_iff_exists.1 hsome
    obtain ⟨t', ht', hget⟩ := attempt?_eq_some_iff.1 ha
    obtain rfl : t = t' := Option.some.inj (ht.symm.trans ht')
    rw [hnumber] at hget
    simp at hget

/-- After `push a` the identity `a.id` names `a`, and every other one names what it named before. -/
theorem attempt?_push {a : Attempt} (h : g.IsNext a.id) :
    (g.push a).attempt? other = if other = a.id then some a else g.attempt? other := by
  obtain ⟨t, ht, hnumber⟩ := h
  unfold push attempt?
  rw [taskOf?_modifyTask]
  by_cases hother : other = a.id
  · subst hother
    rw [if_pos ⟨rfl, rfl⟩, if_pos rfl, ht]
    simp [Task.getElem?_push, hnumber]
  · rw [if_neg hother]
    by_cases hplace : a.id.vertex = other.vertex ∧ a.id.subtask = other.subtask
    · rw [if_pos hplace]
      cases htask : g.taskOf? other with
      | none => rfl
      | some t' =>
        -- The two identities share the task, so they differ in the number of the attempt.
        obtain ⟨rfl, hgen⟩ := taskOf?_unique ht htask hplace
        have hne : other.number ≠ t.attempts.length := by
          intro hnum
          exact hother (AttemptId.ext hplace.1.symm hplace.2.symm hgen.symm
            (hnum.trans hnumber.symm))
        simp [Task.getElem?_push, hne]
    · rw [if_neg hplace]

/-- After `push a` the active attempts are the old ones, and `a` if it is active. -/
theorem isActive_push {a : Attempt} (h : g.IsNext a.id) : (g.push a).IsActive other ↔
    g.IsActive other ∨ other = a.id ∧ a.isActive = true := by
  unfold IsActive
  rw [attempt?_push h]
  by_cases hother : other = a.id
  · subst hother
    -- The identity is new, so there was no attempt with it.
    have hnone : ¬∃ b ∈ g.attempt? a.id, b.isActive = true := fun hactive =>
      h.not_issued (IsActive.issued hactive)
    constructor
    · rintro ⟨b, hb, hactive⟩
      rw [if_pos rfl] at hb
      cases hb
      exact Or.inr ⟨rfl, hactive⟩
    · rintro (hactive | ⟨-, hactive⟩)
      · exact absurd hactive hnone
      · exact ⟨a, if_pos rfl, hactive⟩
  · simp [hother]

/-- Adding an attempt forgets no identity. -/
theorem Issued.push {a : Attempt} (h : g.Issued id) : (g.push a).Issued id :=
  h.modifyTask fun t => by simp [Task.push]

/-- Adding an attempt issues its identity `a.id`. -/
theorem IsNext.issued_push {a : Attempt} (h : g.IsNext a.id) : (g.push a).Issued a.id := by
  have hsome : (g.push a).attempt? a.id = some a := by rw [attempt?_push h, if_pos rfl]
  obtain ⟨t, ht, -⟩ := attempt?_eq_some_iff.1 hsome
  obtain ⟨v, hv, -⟩ := taskOf?_eq_some_iff.1 ht
  exact ⟨v, hv, Or.inr (by rw [hsome]; rfl)⟩

/-! ## New generations -/

/-- The number of the next generation of a vertex. -/
def nextGeneration (g : ExecutionGraph) (vertex : VertexId) : Nat :=
  (g.get? vertex).elim 1 (·.generation + 1)

/-- The attempts of a vertex that hold a slot. -/
def activeIdsOf (g : ExecutionGraph) (vertex : VertexId) : List AttemptId :=
  ((g.get? vertex).elim [] VertexExecution.activeAttempts).map (·.id)

/-- The graph with fresh tasks of a vertex. -/
def regenerate (g : ExecutionGraph) (vertex : VertexId) (parallelism : Nat) (now : Instant) :
    ExecutionGraph :=
  ⟨g.vertices.insert vertex (.fresh vertex (g.nextGeneration vertex) parallelism now)⟩

/-- Starting a generation fails for a parallelism of `0`; otherwise it leads to `g.regenerate` and
returns the attempts of `vertex` that hold a slot as `canceled`. -/
theorem startGeneration_eq (parallelism : Nat) : g.startGeneration vertex parallelism now =
    if parallelism = 0 then .error (.zeroParallelism vertex)
    else .ok ({ generation := g.nextGeneration vertex, canceled := g.activeIdsOf vertex },
      g.regenerate vertex parallelism now) :=
  rfl

/-- Regenerating `vertex` puts a `fresh` generation there, with the next number, and leaves every
other vertex alone. -/
theorem get?_regenerate (parallelism : Nat) (other : VertexId) :
    (g.regenerate vertex parallelism now).get? other =
      if vertex = other then some (.fresh vertex (g.nextGeneration vertex) parallelism now)
      else g.get? other :=
  get?_insert g vertex other _

/-- The tasks of a `fresh` generation have no attempts. -/
theorem attempts_of_mem_fresh {generation parallelism : Nat} {t : Task}
    (h : t ∈ (VertexExecution.fresh vertex generation parallelism now).tasks) :
    t.attempts = [] := by
  obtain ⟨_, _, rfl⟩ := List.mem_map.1 h
  rfl

/-- A property `P` of every task is kept by `regenerate` if tasks without attempts have it. -/
theorem EachTask.regenerate {P : Task → Prop} (h : g.EachTask P) (parallelism : Nat)
    (hP : ∀ t : Task, t.attempts = [] → P t) :
    (g.regenerate vertex parallelism now).EachTask P := by
  intro w v k t hv ht
  rw [get?_regenerate] at hv
  split at hv
  · cases hv
    exact hP t (attempts_of_mem_fresh (List.mem_of_getElem? ht))
  · exact h w v k t hv ht

/-- Regenerating `vertex` leaves no attempt of it, and all attempts of other vertices. -/
theorem attempt?_regenerate (parallelism : Nat) :
    (g.regenerate vertex parallelism now).attempt? id =
      if vertex = id.vertex then none else g.attempt? id := by
  by_cases hvertex : vertex = id.vertex
  · -- An attempt would belong to a fresh task.
    rw [if_pos hvertex, Option.eq_none_iff_forall_ne_some]
    intro a ha
    obtain ⟨t, ht, hget⟩ := attempt?_eq_some_iff.1 ha
    obtain ⟨v, hv, -, htask⟩ := taskOf?_eq_some_iff.1 ht
    rw [get?_regenerate, if_pos hvertex] at hv
    obtain rfl := Option.some.inj hv
    rw [attempts_of_mem_fresh (List.mem_of_getElem? htask)] at hget
    simp at hget
  · unfold attempt? taskOf?
    rw [get?_regenerate, if_neg hvertex, if_neg hvertex]

/-- After `regenerate` the active attempts are the old ones of other vertices. -/
theorem isActive_regenerate (parallelism : Nat) :
    (g.regenerate vertex parallelism now).IsActive id ↔ g.IsActive id ∧ id.vertex ≠ vertex := by
  unfold IsActive
  rw [attempt?_regenerate]
  by_cases h : vertex = id.vertex
  · simp [h]
  · simp [h, Ne.symm h]

/-- Regenerating forgets no identity: those of the old generation of `vertex` are now of an earlier
one. -/
theorem Issued.regenerate (h : g.Issued id) (parallelism : Nat) :
    (g.regenerate vertex parallelism now).Issued id := by
  obtain ⟨v, hv, hid⟩ := h
  by_cases hvertex : vertex = id.vertex
  · -- Whatever generation the identity belongs to, the new one is later.
    refine ⟨_, by rw [get?_regenerate, if_pos hvertex]; rfl, Or.inl ?_⟩
    show id.generation < g.nextGeneration vertex
    unfold nextGeneration
    rw [hvertex, hv]
    show id.generation < v.generation + 1
    rcases hid with hlt | hsome
    · omega
    · obtain ⟨a, ha⟩ := Option.isSome_iff_exists.1 hsome
      obtain ⟨t, ht, -⟩ := attempt?_eq_some_iff.1 ha
      obtain ⟨w, hw, hgen, -⟩ := taskOf?_eq_some_iff.1 ht
      obtain rfl : v = w := Option.some.inj (hv.symm.trans hw)
      omega
  · refine ⟨v, by rw [get?_regenerate, if_neg hvertex]; exact hv, hid.imp_right ?_⟩
    intro hsome
    rw [attempt?_regenerate, if_neg hvertex]
    exact hsome

/-! ## Reports -/

/-- A report is applied, `strayReason? id = .ok none`, exactly when the attempt is awaited. -/
theorem strayReason?_eq_none_iff : g.strayReason? id = .ok none ↔ g.Awaits id := by
  unfold strayReason? Awaits attempt?
  cases hv : g.get? id.vertex with
  | none =>
    have hnone : g.taskOf? id = none := by unfold taskOf?; rw [hv]
    simp [hnone]
  | some v =>
    by_cases hlt : id.generation < v.generation
    · -- The tasks of an earlier generation are gone.
      have hnone : g.taskOf? id = none := by
        unfold taskOf?
        rw [hv]
        exact if_neg (Nat.ne_of_gt hlt)
      simp [hlt, hnone]
    · simp only [if_neg hlt]
      cases g.taskOf? id with
      | none => simp
      | some t =>
        cases ha : t.attempts[id.number]? with
        | none => simp [Task.IsActive, ha]
        | some a =>
          -- The attempt is awaited if its status and the missing winner of its task say so.
          simp only [Option.bind_some, ha]
          cases hs : a.status <;> cases hw : t.winner <;>
            simp [Task.IsActive, ha, Attempt.isActive, hs, AttemptStatus.isActive, Task.isFinished,
              hw]

/-- A report that succeeds is discarded for a `reason`, or it changes the task of an awaited attempt
by `change`. -/
theorem report_cases {α : Type} {change : Task → Task} {result : ExecutionGraph → α}
    {outcome : Reported α} {g' : ExecutionGraph}
    (h : g.report id change result = .ok (outcome, g')) :
    (∃ reason, outcome = .stray reason ∧ g' = g) ∨
      g.Awaits id ∧ outcome = .applied (result g') ∧
        g' = g.modifyTask id.vertex id.subtask change := by
  unfold report at h
  cases hr : g.strayReason? id with
  | error e => rw [hr] at h; cases h
  | ok reason? =>
    rw [hr] at h
    cases reason? with
    | some reason => cases h; exact Or.inl ⟨reason, rfl, rfl⟩
    | none => cases h; exact Or.inr ⟨strayReason?_eq_none_iff.1 hr, rfl, rfl⟩

/-- A report about an awaited attempt is applied: it makes its `change` and returns the `result` for
the graph it leads to. -/
theorem report_of_awaits {α : Type} (h : g.Awaits id) (change : Task → Task)
    (result : ExecutionGraph → α) :
    g.report id change result =
      .ok (.applied (result (g.modifyTask id.vertex id.subtask change)),
        g.modifyTask id.vertex id.subtask change) := by
  unfold report
  rw [strayReason?_eq_none_iff.2 h]

end ExecutionGraph

end AdaptiveBatch
