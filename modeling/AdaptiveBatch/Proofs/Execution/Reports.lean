import AdaptiveBatch.Proofs.Execution.WellFormed

/-! # What reports do

An applied report concerns an attempt that is awaited: it holds a slot of an unfinished task. Its
effect on the slots is one of three: none, the slot of the attempt becomes free, or all slots of the
task become free.

* **`ExecutionGraph.isActive_of_runs`**, **`ExecutionGraph.isActive_of_ends`**,
  **`ExecutionGraph.isActive_win`** — these three effects;
* **`ExecutionGraph.cancelEach`** — attempts canceled one after the other;
* **`ExecutionGraph.unfinished?`** — the parallelism of an unfinished vertex;
* **`ExecutionGraph.SameSizes`** — what only a win or a new generation changes;
* **`ExecutionGraph.on_vertexNodeCounts_push`** — how many attempts of a vertex a node hosts. -/

namespace AdaptiveBatch.ExecutionGraph

variable {g : ExecutionGraph} {id other : AttemptId} {vertex : VertexId} {k : Nat}
  {f : Task → Task} {advance : Attempt → Attempt} {now : Instant}

/-- The generation and the task of an awaited attempt: the attempt is active in the task, which has
no `winner`. -/
theorem Awaits.exists_task (h : g.Awaits id) : ∃ v t, g.get? id.vertex = some v ∧
    v.generation = id.generation ∧ v.tasks[id.subtask]? = some t ∧ g.taskOf? id = some t ∧
      t.IsActive id.number ∧ t.winner = none := by
  obtain ⟨t, ht, hactive, hw⟩ := h
  obtain ⟨v, hv, hgen, htask⟩ := taskOf?_eq_some_iff.1 ht
  exact ⟨v, t, hv, hgen, htask, ht, hactive, hw⟩

/-- The generation and the task of an attempt that holds a slot; the task may have a `winner`. -/
theorem IsActive.exists_task (h : g.IsActive id) : ∃ v t, g.get? id.vertex = some v ∧
    v.generation = id.generation ∧ v.tasks[id.subtask]? = some t ∧ t.IsActive id.number := by
  obtain ⟨t, ht, hactive⟩ := isActive_iff.1 h
  obtain ⟨v, hv, hgen, htask⟩ := taskOf?_eq_some_iff.1 ht
  exact ⟨v, t, hv, hgen, htask, hactive⟩

/-! ## Steps of one attempt -/

/-- A step of an active attempt that keeps its `id` and does not finish it leaves a well-formed
graph. -/
theorem WellFormed.modifyAttempt (h : g.WellFormed) (hid : g.IsActive id)
    (hkeep : ∀ a, (advance a).id = a.id)
    (hadvance : ∀ a, a.isActive = true → (advance a).status ≠ .finished) :
    (g.modifyAttempt id advance).WellFormed := by
  obtain ⟨v, t, hv, -, htask, a, ha, hactive⟩ := hid.exists_task
  apply h.modifyTask
  intro w t' hw ht'
  obtain ⟨rfl, rfl⟩ := task_unique hv htask hw ht'
  apply ((h _ v hv).task _ t htask).modifyAttempt hkeep
  intro b hb
  obtain rfl : a = b := Option.some.inj (ha.symm.trans hb)
  refine ⟨fun hs => absurd hs (hadvance a hactive), ?_⟩
  intro hs
  rw [Attempt.isActive, hs] at hactive
  cases hactive

/-- A step of an awaited attempt leaves every won task without a slot, since its own task is not
won. -/
theorem Settled.modifyAttempt (h : g.Settled) (hid : g.Awaits id) :
    (g.modifyAttempt id advance).Settled := by
  obtain ⟨v, t, hv, -, htask, -, -, hw⟩ := hid.exists_task
  apply h.modifyTask
  intro w t' hw' ht'
  obtain ⟨rfl, rfl⟩ := task_unique hv htask hw' ht'
  exact Task.settled_of_winner_eq_none hw

/-- A step of an attempt forgets no identity. -/
theorem Issued.modifyAttempt (h : g.Issued other) : (g.modifyAttempt id advance).Issued other :=
  h.modifyTask fun t => by simp [Task.modifyAttempt]

/-- A step to another active state frees no slot: the active attempts are the same. -/
theorem isActive_of_runs (hid : g.Awaits id)
    (hadvance : ∀ a, a.isActive = true → (advance a).isActive = true) :
    (g.modifyAttempt id advance).IsActive other ↔ g.IsActive other := by
  obtain ⟨t, ht, ⟨a, ha, hactive⟩, -⟩ := hid
  unfold modifyAttempt
  rw [isActive_modifyTask]
  split
  · next hplace =>
    rw [isActive_iff]
    refine exists_congr fun t' => and_congr_right fun ht' => ?_
    obtain ⟨rfl, -⟩ := taskOf?_unique ht ht' hplace
    rw [Task.isActive_modifyAttempt]
    split
    · -- The attempt itself was active and stays so.
      next hnumber =>
      rw [← hnumber, Task.IsActive, ha]
      simp [hactive, hadvance a hactive]
    · exact Iff.rfl
  · exact Iff.rfl

/-- A step to an end frees the slot of the attempt `id`, and no other. -/
theorem isActive_of_ends (hid : g.Awaits id) (hadvance : ∀ a, (advance a).isActive = false) :
    (g.modifyAttempt id advance).IsActive other ↔ g.IsActive other ∧ other ≠ id := by
  obtain ⟨t, ht, -, -⟩ := hid
  unfold modifyAttempt
  rw [isActive_modifyTask]
  split
  · next hplace =>
    rw [isActive_iff]
    constructor
    · rintro ⟨t', ht', hactive⟩
      obtain ⟨hactive, hne⟩ := (Task.isActive_modifyAttempt_of_ends hadvance).1 hactive
      exact ⟨⟨t', ht', hactive⟩, fun heq => hne (congrArg AttemptId.number heq)⟩
    · rintro ⟨⟨t', ht', hactive⟩, hne⟩
      -- In the same task the number tells attempts apart.
      obtain ⟨-, hgen⟩ := taskOf?_unique ht ht' hplace
      have hnumber : other.number ≠ id.number := by
        intro hnumber
        exact hne (AttemptId.ext hplace.1.symm hplace.2.symm hgen.symm hnumber)
      exact ⟨t', ht', (Task.isActive_modifyAttempt_of_ends hadvance).2 ⟨hactive, hnumber⟩⟩
  · next hplace =>
    refine ⟨fun hactive => ⟨hactive, ?_⟩, And.left⟩
    rintro rfl
    exact hplace ⟨rfl, rfl⟩

/-! ## Wins -/

/-- The other attempts of the task that hold a slot. -/
def rivalIds (g : ExecutionGraph) (id : AttemptId) : List AttemptId :=
  ((g.taskOf? id).elim [] (·.rivals id.number)).map (·.id)

/-- The graph after an attempt has won its task. -/
def win (g : ExecutionGraph) (id : AttemptId) (inputBytes outputBytes : Option Nat)
    (now : Instant) : ExecutionGraph :=
  g.modifyTask id.vertex id.subtask (·.win id.number inputBytes outputBytes now)

variable {inputBytes outputBytes : Option Nat}

/-- The rivals of `id` are the other active attempts of its vertex, its task and its generation. -/
theorem mem_rivalIds (h : g.WellFormed) : other ∈ g.rivalIds id ↔
    g.IsActive other ∧ other ≠ id ∧ other.vertex = id.vertex ∧ other.subtask = id.subtask ∧
      other.generation = id.generation := by
  unfold rivalIds
  cases ht : g.taskOf? id with
  | none =>
    refine ⟨fun hmem => absurd hmem List.not_mem_nil, ?_⟩
    rintro ⟨hactive, -, hvertex, hsubtask, hgen⟩
    obtain ⟨t, ht', -⟩ := isActive_iff.1 hactive
    unfold taskOf? at ht ht'
    rw [hvertex, hsubtask, hgen, ht] at ht'
    cases ht'
  | some t =>
    show other ∈ (t.rivals id.number).map (·.id) ↔ _
    rw [Task.mem_rivalIds, (h.taskOf? ht).mem_activeIds, isActive_iff]
    constructor
    · rintro ⟨⟨heq, hactive⟩, hne⟩
      have hvertex : other.vertex = id.vertex := by rw [heq]
      have hsubtask : other.subtask = id.subtask := by rw [heq]
      have hgen : other.generation = id.generation := by rw [heq]
      refine ⟨⟨t, ?_, hactive⟩, fun hid => hne (congrArg AttemptId.number hid), hvertex, hsubtask,
        hgen⟩
      unfold taskOf? at ht ⊢
      rw [hvertex, hsubtask, hgen]
      exact ht
    · rintro ⟨⟨t', ht', hactive⟩, hne, hvertex, hsubtask, hgen⟩
      have hsame : g.taskOf? other = g.taskOf? id := by
        unfold taskOf?
        rw [hvertex, hsubtask, hgen]
      obtain rfl : t' = t := Option.some.inj (ht'.symm.trans (hsame.trans ht))
      exact ⟨⟨AttemptId.ext hvertex hsubtask hgen rfl, hactive⟩, fun hnumber =>
        hne (AttemptId.ext hvertex hsubtask hgen hnumber)⟩

/-- No rival is listed twice in `rivalIds`. -/
theorem nodup_rivalIds (h : g.WellFormed) : (g.rivalIds id).Nodup := by
  unfold rivalIds
  cases ht : g.taskOf? id with
  | none => exact List.nodup_nil
  | some t => exact (h.taskOf? ht).nodup_rivalIds

/-- A win frees the slots of the attempt `id` and of its rivals, and no other. -/
theorem isActive_win (h : g.WellFormed) (hid : g.Awaits id) :
    (g.win id inputBytes outputBytes now).IsActive other ↔
      g.IsActive other ∧ other ≠ id ∧ other ∉ g.rivalIds id := by
  obtain ⟨t, ht, -, -⟩ := hid
  rw [mem_rivalIds h]
  unfold win
  rw [isActive_modifyTask]
  split
  · -- In the task itself no attempt holds a slot any more: all others were rivals.
    next hplace =>
    constructor
    · intro hactive
      obtain ⟨t', -, hactive⟩ := hactive
      exact absurd hactive (Task.not_isActive_win _ _ _)
    · rintro ⟨hold, hne, hrival⟩
      obtain ⟨t', ht', -⟩ := isActive_iff.1 hold
      obtain ⟨-, hgen⟩ := taskOf?_unique ht ht' hplace
      exact absurd ⟨hold, hne, hplace.1.symm, hplace.2.symm, hgen.symm⟩ hrival
  · next hplace =>
    constructor
    · intro hactive
      refine ⟨hactive, ?_, fun hrival => hplace ⟨hrival.2.2.1.symm, hrival.2.2.2.1.symm⟩⟩
      rintro rfl
      exact hplace ⟨rfl, rfl⟩
    · exact And.left

/-- A win of an awaited attempt leaves a well-formed graph. -/
theorem WellFormed.win (h : g.WellFormed) (hid : g.Awaits id) :
    (g.win id inputBytes outputBytes now).WellFormed := by
  obtain ⟨v, t, hv, -, htask, -, ⟨a, ha, -⟩, hw⟩ := hid.exists_task
  apply h.modifyTask
  intro w t' hw' ht'
  obtain ⟨rfl, rfl⟩ := task_unique hv htask hw' ht'
  exact ((h _ v hv).task _ t htask).win hw (List.getElem?_eq_some_iff.1 ha).1 _ _

/-- After a win no won task holds a slot, neither the one just won nor those won before. -/
theorem Settled.win (h : g.Settled) : (g.win id inputBytes outputBytes now).Settled :=
  h.modifyTask fun _ _ _ _ _ => Task.activeAttempts_win _ _ _ _ _

/-- A win forgets no identity. -/
theorem Issued.win (h : g.Issued other) : (g.win id inputBytes outputBytes now).Issued other :=
  h.modifyTask fun t => by simp [Task.win]

/-! ## Cancellations -/

/-- The graph after a cancellation, if it is possible. -/
def cancelOne (now : Instant) (g : ExecutionGraph) (id : AttemptId) : ExecutionGraph :=
  match g.cancelAttempt id now with
  | .ok (_, g) => g
  | .error _ => g

/-- The graph after cancellations, one after the other. -/
def cancelEach (g : ExecutionGraph) (ids : List AttemptId) (now : Instant) : ExecutionGraph :=
  ids.foldl (cancelOne now) g

/-- A cancellation changes an awaited attempt by `Attempt.cancel`, or nothing. -/
theorem cancelOne_cases (g : ExecutionGraph) (id : AttemptId) (now : Instant) :
    g.Awaits id ∧ cancelOne now g id = g.modifyAttempt id (·.cancel now) ∨
      ¬g.Awaits id ∧ cancelOne now g id = g := by
  unfold cancelOne cancelAttempt
  by_cases hid : g.Awaits id
  · rw [report_of_awaits hid]
    exact Or.inl ⟨hid, rfl⟩
  · refine Or.inr ⟨hid, ?_⟩
    cases hr : g.report id (·.modifyAttempt id.number (·.cancel now)) fun _ => () with
    | error e => rfl
    | ok r =>
      rcases report_cases hr with ⟨reason, -, hg⟩ | ⟨hawaits, -⟩
      · exact hg
      · exact absurd hawaits hid

/-- What the cancellation of an awaited attempt keeps is kept by `cancelOne`, which may also do
nothing. -/
theorem cancelOne_keeps {J : ExecutionGraph → Prop} (h : J g)
    (hcancel : g.Awaits id → J (g.modifyAttempt id (·.cancel now))) : J (cancelOne now g id) := by
  rcases cancelOne_cases g id now with ⟨hid, heq⟩ | ⟨-, heq⟩
  · rw [heq]
    exact hcancel hid
  · rw [heq]
    exact h

/-- What the cancellation of an awaited attempt keeps is kept by any number of cancellations, one
after the other. -/
theorem cancelEach_keeps {J : ExecutionGraph → Prop} (h : J g)
    (hcancel : ∀ g id, g.Awaits id → J g → J (g.modifyAttempt id (·.cancel now)))
    (ids : List AttemptId) : J (g.cancelEach ids now) := by
  induction ids generalizing g with
  | nil => exact h
  | cons id rest ih =>
    have hone : J (cancelOne now g id) := cancelOne_keeps h fun hid => hcancel g id hid h
    exact ih hone

/-- Cancellations leave a well-formed graph. -/
theorem WellFormed.cancelEach (h : g.WellFormed) (ids : List AttemptId) :
    (g.cancelEach ids now).WellFormed := by
  refine cancelEach_keeps h ?_ ids
  intro g id hid hg
  refine hg.modifyAttempt hid.isActive (fun a => Attempt.id_cancel a now) ?_
  intro a hactive
  rw [Attempt.cancel, if_pos hactive]
  exact AttemptStatus.noConfusion

/-- Cancellations leave no slot to a won task that had none. -/
theorem Settled.cancelEach (h : g.Settled) (ids : List AttemptId) :
    (g.cancelEach ids now).Settled :=
  cancelEach_keeps h (fun _ _ hid hg => hg.modifyAttempt hid) ids

/-- Cancellations forget no identity. -/
theorem Issued.cancelEach (h : g.Issued other) (ids : List AttemptId) :
    (g.cancelEach ids now).Issued other :=
  cancelEach_keeps (J := fun g => g.Issued other) h (fun _ _ _ hg => hg.modifyAttempt) ids

/-- A cancellation frees the slot of `id`, if it holds one, and no other. -/
theorem isActive_cancelOne (h : g.Settled) :
    (cancelOne now g id).IsActive other ↔ g.IsActive other ∧ other ≠ id := by
  rcases cancelOne_cases g id now with ⟨hid, heq⟩ | ⟨hid, heq⟩
  · rw [heq]
    exact isActive_of_ends hid fun a => Attempt.isActive_cancel a now
  · -- An attempt that is not awaited holds no slot.
    rw [heq]
    constructor
    · intro hactive
      refine ⟨hactive, ?_⟩
      rintro rfl
      exact hid (h.awaits_iff.2 hactive)
    · exact And.left

/-- Cancellations free the slots of the attempts `ids`, and no others. -/
theorem isActive_cancelEach (h : g.Settled) (ids : List AttemptId) :
    (g.cancelEach ids now).IsActive other ↔ g.IsActive other ∧ other ∉ ids := by
  induction ids generalizing g with
  | nil => simp [ExecutionGraph.cancelEach]
  | cons id rest ih =>
    have hsettled : (cancelOne now g id).Settled := cancelOne_keeps h h.modifyAttempt
    show ((cancelOne now g id).cancelEach rest now).IsActive other ↔ _
    rw [ih hsettled, isActive_cancelOne h, List.mem_cons, not_or, and_assoc]

/-! ## Sizes -/

/-- The parallelism of a vertex that has started and not finished. -/
def unfinished? (g : ExecutionGraph) (vertex : VertexId) : Option Nat :=
  ((g.get? vertex).filter (!·.isFinished)).map (·.parallelism)

/-- A vertex is unfinished iff it has started and its generation is not finished. -/
theorem isSome_unfinished? : (g.unfinished? vertex).isSome =
    (g.get? vertex).any (!·.isFinished) := by
  unfold unfinished?
  rw [Option.isSome_map]
  cases g.get? vertex with
  | none => rfl
  | some v => cases hv : v.isFinished <;> simp [Option.filter, hv]

/-- A finished vertex is one that has started and is not `unfinished?`. -/
theorem isFinished_eq : g.isFinished vertex =
    ((g.get? vertex).isSome && !(g.unfinished? vertex).isSome) := by
  rw [isSome_unfinished?, isFinished]
  cases g.get? vertex <;> simp

/-- An unfinished vertex is not finished. -/
theorem isFinished_of_unfinished? (h : (g.unfinished? vertex).isSome = true) :
    g.isFinished vertex = false := by
  rw [isFinished_eq, h, Bool.not_true, Bool.and_false]

/-- A vertex that has not started is not finished. -/
theorem isFinished_of_get?_eq_none (h : g.get? vertex = none) : g.isFinished vertex = false := by
  rw [isFinished, h, Option.any_none]

/-- A vertex with a task `k` that is not won is not finished. -/
theorem isFinished_of_winner_eq_none {v : VertexExecution} {t : Task} (hv : g.get? vertex = some v)
    (ht : v.tasks[k]? = some t) (hw : t.winner = none) : g.isFinished vertex = false := by
  rw [isFinished, hv, Option.any_some]
  exact VertexExecution.isFinished_eq_false ht hw

/-- An unfinished vertex has started. -/
theorem isSome_get?_of_unfinished? (h : (g.unfinished? vertex).isSome = true) :
    (g.get? vertex).isSome = true := by
  rw [isSome_unfinished?] at h
  cases hv : g.get? vertex with
  | none => rw [hv] at h; cases h
  | some v => rfl

/-- The unfinished generation `v` is as large as its `parallelism` says. -/
theorem unfinished?_of_get? {v : VertexExecution} (hv : g.get? vertex = some v)
    (hopen : v.isFinished = false) : g.unfinished? vertex = some v.parallelism := by
  unfold unfinished?
  rw [hv, Option.filter_some_pos (by rw [hopen]; rfl)]
  rfl

/-- Regenerating `vertex` with `parallelism ≠ 0` makes it unfinished and that large, and leaves the
others as they are. -/
theorem unfinished?_regenerate {parallelism : Nat} (hp : parallelism ≠ 0) (other : VertexId) :
    (g.regenerate vertex parallelism now).unfinished? other =
      if vertex = other then some parallelism else g.unfinished? other := by
  unfold unfinished?
  rw [get?_regenerate]
  split
  · rw [Option.filter_some_pos (by rw [VertexExecution.isFinished_fresh hp]; rfl)]
    rfl
  · rfl

/-- After `regenerate` the vertex has started, and of the others those that had. -/
theorem isSome_get?_regenerate (parallelism : Nat) (other : VertexId) :
    ((g.regenerate vertex parallelism now).get? other).isSome =
      if vertex = other then true else (g.get? other).isSome := by
  rw [get?_regenerate]
  split <;> rfl

/-- The same vertices have started, and the unfinished ones are the same and as large. -/
def SameSizes (g g' : ExecutionGraph) : Prop :=
  ∀ vertex, (g'.get? vertex).isSome = (g.get? vertex).isSome ∧
    g'.unfinished? vertex = g.unfinished? vertex

/-- A graph has the same sizes as itself. -/
theorem SameSizes.refl (g : ExecutionGraph) : g.SameSizes g := fun _ => ⟨rfl, rfl⟩

/-- Having the `SameSizes` is transitive. -/
theorem SameSizes.trans {g' g'' : ExecutionGraph} (h : g.SameSizes g') (h' : g'.SameSizes g'') :
    g.SameSizes g'' := fun vertex =>
  ⟨(h' vertex).1.trans (h vertex).1, (h' vertex).2.trans (h vertex).2⟩

/-- Graphs of the same sizes have the same finished vertices. -/
theorem SameSizes.isFinished_eq {g' : ExecutionGraph} (h : g.SameSizes g') (vertex : VertexId) :
    g'.isFinished vertex = g.isFinished vertex := by
  rw [ExecutionGraph.isFinished_eq, (h vertex).1, (h vertex).2, ← ExecutionGraph.isFinished_eq]

/-- An unfinished vertex is as large as it was: its `parallelism` is the same in a graph of the same
sizes. -/
theorem SameSizes.exists_get? {g' : ExecutionGraph} (h : g.SameSizes g') {v : VertexExecution}
    (hv : g.get? vertex = some v) (hopen : v.isFinished = false) :
    ∃ w, g'.get? vertex = some w ∧ w.parallelism = v.parallelism := by
  have hsize := (h vertex).2
  rw [unfinished?_of_get? hv hopen] at hsize
  obtain ⟨w, hw, heq⟩ := Option.map_eq_some_iff.1 hsize
  exact ⟨w, (Option.filter_eq_some_iff.1 hw).1, heq⟩

/-- Changing tasks without a change of their `winner` keeps the vertex as far from its end as it
was. -/
theorem isFinished_modify {v : VertexExecution} (hf : ∀ t, (f t).winner = t.winner) :
    ({ v with tasks := v.tasks.modify k f } : VertexExecution).isFinished = v.isFinished := by
  have hsame : (v.tasks.modify k f).map Task.isFinished = v.tasks.map Task.isFinished := by
    apply List.ext_getElem?
    intro i
    rw [List.getElem?_map, List.getElem?_map, List.getElem?_modify]
    split
    · cases v.tasks[i]? <;> simp [Task.isFinished, hf]
    · simp
  have hall (l : List Task) : l.all Task.isFinished = (l.map Task.isFinished).all id := by
    simp [List.all_map]
  unfold VertexExecution.isFinished
  rw [hall, hsame, ← hall]

/-- Changing a task starts no vertex and removes none. -/
theorem isSome_get?_modifyTask (other : VertexId) :
    ((g.modifyTask vertex k f).get? other).isSome = (g.get? other).isSome := by
  rw [get?_modifyTask]
  split
  · rw [Option.isSome_map]
  · rfl

/-- Only winners make a difference to the unfinished vertices: a change `f` that keeps `winner`
keeps all sizes. -/
theorem sameSizes_modifyTask (hf : ∀ t, (f t).winner = t.winner) :
    g.SameSizes (g.modifyTask vertex k f) := by
  intro other
  refine ⟨isSome_get?_modifyTask other, ?_⟩
  unfold unfinished?
  rw [get?_modifyTask]
  split
  · cases g.get? other with
    | none => rfl
    | some v => cases hv : v.isFinished <;> simp [Option.filter, isFinished_modify hf, hv]
  · rfl

/-- One more attempt makes no difference to which vertices are unfinished. -/
theorem sameSizes_push (a : Attempt) : g.SameSizes (g.push a) :=
  sameSizes_modifyTask fun _ => rfl

/-- A step of an attempt makes no difference to which vertices are unfinished. -/
theorem sameSizes_modifyAttempt : g.SameSizes (g.modifyAttempt id advance) :=
  sameSizes_modifyTask fun _ => rfl

/-- Cancellations make no difference to which vertices are unfinished. -/
theorem sameSizes_cancelEach (ids : List AttemptId) : g.SameSizes (g.cancelEach ids now) :=
  cancelEach_keeps (SameSizes.refl g) (fun _ _ _ hg => hg.trans sameSizes_modifyAttempt) ids

/-- A win finishes the vertex of `id` or leaves it as it was, and makes no difference to any
other. -/
theorem unfinished?_win (hid : g.Awaits id) (inputBytes outputBytes : Option Nat) (now : Instant)
    (other : VertexId) :
    (g.win id inputBytes outputBytes now).unfinished? other =
      if other = id.vertex ∧ (g.win id inputBytes outputBytes now).isFinished id.vertex = true
      then none else g.unfinished? other := by
  obtain ⟨v, t, hv, -, htask, -, -, hw⟩ := hid.exists_task
  by_cases hother : other = id.vertex
  · subst hother
    -- The vertex was unfinished, since the awaited task had no winner.
    have hold : v.isFinished = false := VertexExecution.isFinished_eq_false htask hw
    obtain ⟨w, hnew, hsize⟩ : ∃ w, (g.win id inputBytes outputBytes now).get? id.vertex = some w ∧
        w.parallelism = v.parallelism := by
      rw [win, get?_modifyTask, if_pos rfl, hv]
      exact ⟨_, rfl, rfl⟩
    unfold unfinished? isFinished
    rw [hnew, hv]
    cases hfin : w.isFinished <;> simp [Option.filter, hfin, hold, hsize]
  · rw [if_neg fun h => hother h.1]
    unfold unfinished? win
    rw [get?_modifyTask, if_neg (Ne.symm hother)]

/-! ## Occupancy -/

/-- One more attempt in the task `k` adds one to the count of `a.node` if `a` is active, and nothing
to other counts. -/
theorem count_nodes_push (node : NodeId) (a : Attempt) {l : List Task} {t : Task}
    (ht : l[k]? = some t) :
    (((l.modify k (·.push a)).flatMap Task.activeAttempts).map (·.node)).count node =
      ((l.flatMap Task.activeAttempts).map (·.node)).count node +
        if a.isActive = true ∧ a.node = node then 1 else 0 := by
  induction l generalizing k with
  | nil => simp at ht
  | cons first rest ih =>
    cases k with
    | zero =>
      -- The first task is the one that gets the attempt.
      simp only [List.modify_zero_cons, List.flatMap_cons, List.map_append, List.count_append]
      have hfirst : ((first.push a).activeAttempts.map (·.node)).count node =
          (first.activeAttempts.map (·.node)).count node +
            if a.isActive = true ∧ a.node = node then 1 else 0 := by
        unfold Task.activeAttempts Task.push
        rw [List.filter_append, List.map_append, List.count_append]
        cases hactive : a.isActive <;> simp [hactive, List.count_singleton]
      omega
    | succ k =>
      simp only [List.modify_succ_cons, List.flatMap_cons, List.map_append, List.count_append]
      have hrest := ih (k := k) ht
      omega

/-- One more attempt counts for its vertex, `a.id.vertex`, on its node if it holds a slot. -/
theorem on_vertexNodeCounts_push {a : Attempt} (h : g.IsNext a.id) (vertex : VertexId)
    (node : NodeId) : ((g.push a).vertexNodeCounts vertex).on node =
      (g.vertexNodeCounts vertex).on node +
        if a.id.vertex = vertex ∧ a.isActive = true ∧ a.node = node then 1 else 0 := by
  obtain ⟨t, ht, -⟩ := h
  obtain ⟨v, hv, -, htask⟩ := taskOf?_eq_some_iff.1 ht
  unfold vertexNodeCounts push
  rw [NodeCounts.on_ofNodes, NodeCounts.on_ofNodes, get?_modifyTask]
  by_cases hvertex : a.id.vertex = vertex
  · subst hvertex
    rw [if_pos rfl, hv]
    simpa [VertexExecution.activeAttempts] using count_nodes_push node a htask
  · simp [hvertex]

end AdaptiveBatch.ExecutionGraph
