import AdaptiveBatch.Proofs.Execution.Permanence
import AdaptiveBatch.Proofs.Execution.Outcomes
import Mathlib.Data.List.Perm.Basic

/-! # Reports of different tasks commute

A report reads and writes one task. So two reports of different tasks can be exchanged: the graph
after both is the same, and each returns what it returns without the other. There is one exception:
a win tells whether its vertex is finished now, which depends on all tasks of the vertex. Of two
wins that finish it together, the later one says so.

* **`AttemptId.SameTask`** — two identities name one task;
* **`ExecutionGraph.Outcome.ofTask`** — what a report returns, as far as its task is concerned;
* **`ExecutionGraph.after_comm`** — the graph after two reports of different tasks;
* **`ExecutionGraph.run_reports_perm`** — reports of different tasks, in any order;
* **`ExecutionGraph.reports_commute`** — the graph and the results, for all reports. -/

namespace AdaptiveBatch

/-- Two identities name one task: a task of the same vertex in the same generation. -/
def AttemptId.SameTask (id other : AttemptId) : Prop :=
  id.vertex = other.vertex ∧ id.subtask = other.subtask ∧ id.generation = other.generation

instance (id other : AttemptId) : Decidable (id.SameTask other) :=
  inferInstanceAs (Decidable (_ ∧ _ ∧ _))

/-- Naming the same task, `SameTask`, is symmetric. -/
theorem AttemptId.SameTask.symm {id other : AttemptId} (h : id.SameTask other) :
    other.SameTask id :=
  ⟨h.1.symm, h.2.1.symm, h.2.2.symm⟩

namespace ExecutionGraph

variable {g g' k k' : ExecutionGraph} {id : AttemptId} {report other : Report}
  {now later : Instant}

/-- What a report returns, without what it says about the vertex. -/
def Outcome.ofTask : Outcome → Outcome
  | .finished (.applied win) => .finished (.applied { win with vertexFinished := false })
  | outcome => outcome

/-! ## Changes in different places -/

/-- Changes `f` and `f'` of tasks in different places, `(vertex, i)` and `(vertex', j)`, can be
exchanged. -/
theorem modifyTask_comm {vertex vertex' : VertexId} {i j : Nat} (f f' : Task → Task)
    (h : ¬(vertex = vertex' ∧ i = j)) :
    (g.modifyTask vertex i f).modifyTask vertex' j f' =
      (g.modifyTask vertex' j f').modifyTask vertex i f := by
  apply ext_get?
  intro w
  simp only [get?_modifyTask]
  by_cases hv : vertex = w
  · by_cases hv' : vertex' = w
    · have hij : i ≠ j := fun hij => h ⟨hv.trans hv'.symm, hij⟩
      simp only [if_pos hv, if_pos hv', Option.map_map]
      refine congrArg (Option.map · (g.get? w)) (funext fun v => ?_)
      simp [List.modify_modify_ne f f' v.tasks hij]
    · simp only [if_neg hv']
  · simp only [if_neg hv]

/-- How a report is classified by `strayReason?` depends on the generation of the vertex and on the
task. -/
theorem strayReason?_congr
    (hgen : (g.get? id.vertex).map (·.generation) = (g'.get? id.vertex).map (·.generation))
    (htask : g.taskOf? id = g'.taskOf? id) : g.strayReason? id = g'.strayReason? id := by
  unfold strayReason? attempt?
  rw [htask]
  cases hv : g.get? id.vertex with
  | none =>
    cases hv' : g'.get? id.vertex with
    | none => rfl
    | some v' => rw [hv, hv'] at hgen; cases hgen
  | some v =>
    cases hv' : g'.get? id.vertex with
    | none => rw [hv, hv'] at hgen; cases hgen
    | some v' =>
      rw [hv, hv'] at hgen
      have hsame : v.generation = v'.generation := Option.some.inj hgen
      simp only [hsame]

/-! ## After a report -/

/-- A report about an awaited attempt leads to the graph with its `change` made to the task that it
names. -/
theorem after_of_awaits (h : g.Awaits report.id) : g.after now report.operation =
    g.modifyTask report.id.vertex report.id.subtask (report.change now) := by
  rw [after, perform_eq, outcome_of_awaits h]
  rfl

/-- A report about an attempt that is not awaited changes nothing. -/
theorem after_of_not_awaits (h : ¬g.Awaits report.id) :
    g.after now report.operation = g := by
  rw [after, perform_eq, outcome_report]
  cases hr : g.strayReason? report.id with
  | error e => rfl
  | ok reason? =>
    cases reason? with
    | some reason => rfl
    | none => exact absurd (strayReason?_eq_none_iff.1 hr) h

/-- What a report returns is decided by `strayReason?`: an error, a reason why it is discarded, or
what comes of its application. -/
theorem answer_report : g.answer now report.operation = match g.strayReason? report.id with
    | .error e => .error e
    | .ok (some reason) => .ok (report.discarded reason)
    | .ok none => .ok (report.applied g (g.after now report.operation)) := by
  cases hr : g.strayReason? report.id with
  | error e => rw [answer, outcome_report, hr]; rfl
  | ok reason? =>
    cases reason? with
    | some reason => rw [answer, outcome_report, hr]; rfl
    | none =>
      have hid := strayReason?_eq_none_iff.1 hr
      rw [answer, outcome_of_awaits hid, after_of_awaits hid]
      rfl

/-- A report keeps the `generation` of every vertex. -/
theorem generation_after (vertex : VertexId) :
    ((g.after now report.operation).get? vertex).map (·.generation) =
      (g.get? vertex).map (·.generation) := by
  by_cases hid : g.Awaits report.id
  · rw [after_of_awaits hid, get?_modifyTask]
    split
    · rw [Option.map_map]
      rfl
    · rfl
  · rw [after_of_not_awaits hid]

/-- A report keeps the tasks that it does not name: `taskOf? id` is as before unless `id` is of the
`SameTask`. -/
theorem taskOf?_after (h : ¬report.id.SameTask id) :
    (g.after now report.operation).taskOf? id = g.taskOf? id := by
  by_cases hid : g.Awaits report.id
  · rw [after_of_awaits hid, taskOf?_modifyTask]
    split
    · next hplace =>
      -- The place is the same, so the generations differ: the other task is not there.
      obtain ⟨t, ht, -⟩ := hid
      cases htask : g.taskOf? id with
      | none => rfl
      | some t' => exact absurd ⟨hplace.1, hplace.2, (taskOf?_unique ht htask hplace).2⟩ h
    · rfl
  · rw [after_of_not_awaits hid]

/-- A report does not alter how a report about another task is classified. -/
theorem strayReason?_after (h : ¬report.id.SameTask id) :
    (g.after now report.operation).strayReason? id = g.strayReason? id :=
  strayReason?_congr (generation_after _) (taskOf?_after h)

/-- A report does not alter whether an attempt of another task is awaited. -/
theorem awaits_after (h : ¬report.id.SameTask id) :
    (g.after now report.operation).Awaits id ↔ g.Awaits id := by
  rw [← strayReason?_eq_none_iff, strayReason?_after h, strayReason?_eq_none_iff]

/-- The graph after two reports of different tasks does not depend on their order, whatever the
times `now` and `later`. -/
theorem after_comm (g : ExecutionGraph) (now later : Instant) (h : ¬report.id.SameTask other.id) :
    (g.after now report.operation).after later other.operation =
      (g.after later other.operation).after now report.operation := by
  have h' : ¬other.id.SameTask report.id := fun hsame => h hsame.symm
  by_cases hid : g.Awaits report.id
  · by_cases hother : g.Awaits other.id
    · rw [after_of_awaits ((awaits_after h).2 hother), after_of_awaits ((awaits_after h').2 hid),
        after_of_awaits hid, after_of_awaits hother]
      apply modifyTask_comm
      intro hplace
      -- Both tasks are of the current generation, so they are in different places.
      obtain ⟨t, ht, -⟩ := hid
      obtain ⟨t', ht', -⟩ := hother
      exact h ⟨hplace.1, hplace.2, (taskOf?_unique ht ht' hplace).2⟩
    · rw [after_of_not_awaits (mt (awaits_after h).1 hother), after_of_not_awaits hother]
  · rw [after_of_not_awaits hid, after_of_not_awaits (mt (awaits_after h').1 hid)]

/-- Reports of pairwise different tasks lead to the same graph in every order: `reports` and any
permutation of it, `reordered`, run to the same end. -/
theorem run_reports_perm (g : ExecutionGraph) {reports reordered : List (Instant × Report)}
    (hperm : reports.Perm reordered)
    (hdistinct : reports.Pairwise fun r r' => ¬r.2.id.SameTask r'.2.id) :
    g.run (reports.map fun r => (r.1, r.2.operation)) =
      g.run (reordered.map fun r => (r.1, r.2.operation)) := by
  induction hperm generalizing g with
  | nil => rfl
  | cons r _ ih => exact ih _ (List.pairwise_cons.1 hdistinct).2
  | swap r r' rest =>
    have hne := (List.pairwise_cons.1 hdistinct).1 r List.mem_cons_self
    show ((g.after r'.1 r'.2.operation).after r.1 r.2.operation).run _ =
      ((g.after r.1 r.2.operation).after r'.1 r'.2.operation).run _
    rw [after_comm g r'.1 r.1 hne]
  | trans first _ ih ih' =>
    exact (ih g hdistinct).trans (ih' g (hdistinct.perm first fun hne hsame => hne hsame.symm))

/-! ## Results -/

/-- What a report returns about its task depends on `taskOf?` only, not on the rest of the graph. -/
theorem ofTask_applied (h : g.taskOf? report.id = k.taskOf? report.id)
    (h' : g'.taskOf? report.id = k'.taskOf? report.id) :
    (report.applied g g').ofTask = (report.applied k k').ofTask := by
  obtain ⟨id, news⟩ := report
  cases news with
  | running | progress | cancellation => rfl
  | success inputBytes outputBytes =>
    simp only [Report.applied, Outcome.ofTask, rivalIds, h]
  | failure => simp only [Report.applied, h']

/-- A report returns the same about its task, `Outcome.ofTask`, before and after a report of another
task. -/
theorem ofTask_answer_after (h : ¬other.id.SameTask report.id) :
    Outcome.ofTask <$> (g.after later other.operation).answer now report.operation =
      Outcome.ofTask <$> g.answer now report.operation := by
  rw [answer_report, answer_report, strayReason?_after h]
  cases g.strayReason? report.id with
  | error e => rfl
  | ok reason? =>
    cases reason? with
    | some reason => rfl
    | none =>
      have hboth : ((g.after later other.operation).after now report.operation).taskOf?
          report.id = (g.after now report.operation).taskOf? report.id := by
        rw [after_comm g later now h, taskOf?_after h]
      exact congrArg Except.ok (ofTask_applied (taskOf?_after h) hboth)

/-- A report that wins once, between `g` and `g'`, wins whenever it is applied; it then cancels
`k.rivalIds` and says whether the vertex is finished in `k'`. -/
theorem applied_of_win {win : Win} (h : report.applied g g' = .finished (.applied win))
    (k k' : ExecutionGraph) : report.applied k k' = .finished (.applied
      { canceled := k.rivalIds report.id, vertexFinished := k'.isFinished report.id.vertex }) := by
  obtain ⟨id, news⟩ := report
  cases news with
  | success inputBytes outputBytes => rfl
  | running | progress | failure | cancellation => cases h

/-- A report that wins is applied: its attempt is awaited by `g`. -/
theorem awaits_of_win {win : Win}
    (h : g.answer now report.operation = .ok (.finished (.applied win))) :
    g.Awaits report.id ∧
      report.applied g (g.after now report.operation) = .finished (.applied win) := by
  rw [answer_report] at h
  cases hr : g.strayReason? report.id with
  | error e => rw [hr] at h; cases h
  | ok reason? =>
    rw [hr] at h
    cases reason? with
    | none => exact ⟨strayReason?_eq_none_iff.1 hr, Except.ok.inj h⟩
    | some reason =>
      -- A stray report is no win, whatever it reports.
      have hstray : report.discarded reason = .finished (.applied win) := Except.ok.inj h
      have hdiscarded := report.isDiscarded_discarded reason
      rw [hstray] at hdiscarded
      cases hdiscarded

/-- A report does not finish a vertex as long as `g` awaits an attempt `id` of another task of
it. -/
theorem isFinished_after_of_awaits (hid : g.Awaits id) (h : ¬report.id.SameTask id) :
    (g.after now report.operation).isFinished id.vertex = false := by
  obtain ⟨v, t, hv, -, htask, -, -, hw⟩ := ((awaits_after h).2 hid).exists_task
  exact isFinished_of_winner_eq_none hv htask hw

/-- After a report of another task a win is the same, except for `vertexFinished`. -/
theorem answer_after_of_win {win : Win} (h : ¬other.id.SameTask report.id)
    (hwin : g.answer now report.operation = .ok (.finished (.applied win))) :
    (g.after later other.operation).answer now report.operation = .ok (.finished (.applied
      { win with vertexFinished := ((g.after later other.operation).after now
          report.operation).isFinished report.id.vertex })) := by
  obtain ⟨hid, happlied⟩ := awaits_of_win hwin
  have hrivals : (g.after later other.operation).rivalIds report.id = win.canceled := by
    have hfirst := applied_of_win happlied g (g.after now report.operation)
    rw [happlied] at hfirst
    rw [rivalIds, taskOf?_after h]
    cases hfirst
    rfl
  rw [answer_report, strayReason?_eq_none_iff.2 ((awaits_after h).2 hid)]
  exact congrArg Except.ok ((applied_of_win happlied _ _).trans (by rw [hrivals]))

/-- While an attempt `id` of another task of the vertex is awaited, a win does not finish the
vertex. -/
theorem vertexFinished_eq_false {win : Win} (h : ¬report.id.SameTask id)
    (hvertex : report.id.vertex = id.vertex) (hid : g.Awaits id)
    (hwin : g.answer now report.operation = .ok (.finished (.applied win))) :
    win.vertexFinished = false := by
  obtain ⟨-, happlied⟩ := awaits_of_win hwin
  have hresult := applied_of_win happlied g (g.after now report.operation)
  rw [happlied, hvertex, isFinished_after_of_awaits hid h] at hresult
  cases hresult
  rfl

/-- **Reports of different tasks commute.** Two reports that name different tasks
(`¬report.id.SameTask other.id`) lead to the same graph in both orders, and each returns the same in
both, or fails in the same way, up to `Outcome.ofTask`, which leaves out what a win says about its
vertex. Of two wins of one vertex the earlier one has `vertexFinished = false`; the later one says
whether the vertex is finished after both. -/
theorem reports_commute (g : ExecutionGraph) (now later : Instant) (report other : Report)
    (hdistinct : ¬report.id.SameTask other.id) :
    (g.after now report.operation).after later other.operation =
      (g.after later other.operation).after now report.operation ∧
    Outcome.ofTask <$> (g.after later other.operation).answer now report.operation =
      Outcome.ofTask <$> g.answer now report.operation ∧
    Outcome.ofTask <$> (g.after now report.operation).answer later other.operation =
      Outcome.ofTask <$> g.answer later other.operation ∧
    ∀ win win' : Win, report.id.vertex = other.id.vertex →
      g.answer now report.operation = .ok (.finished (.applied win)) →
      g.answer later other.operation = .ok (.finished (.applied win')) →
        let finished := ((g.after now report.operation).after later other.operation).isFinished
          report.id.vertex
        win.vertexFinished = false ∧ win'.vertexFinished = false ∧
        (g.after later other.operation).answer now report.operation =
          .ok (.finished (.applied { win with vertexFinished := finished })) ∧
        (g.after now report.operation).answer later other.operation =
          .ok (.finished (.applied { win' with vertexFinished := finished })) := by
  have hdistinct' : ¬other.id.SameTask report.id := fun hsame => hdistinct hsame.symm
  have hcomm := after_comm g now later hdistinct
  refine ⟨hcomm, ofTask_answer_after hdistinct', ofTask_answer_after hdistinct, ?_⟩
  intro win win' hvertex hwin hwin' finished
  refine ⟨vertexFinished_eq_false hdistinct hvertex (awaits_of_win hwin').1 hwin,
    vertexFinished_eq_false hdistinct' hvertex.symm (awaits_of_win hwin).1 hwin', ?_, ?_⟩
  · rw [answer_after_of_win hdistinct' hwin, ← hcomm]
  · rw [answer_after_of_win hdistinct hwin', ← hvertex]

/-- A vertex with two tasks, of which each has an attempt. -/
def sampleTwoTasks : List (Instant × Operation) :=
  [(.origin, .startGeneration "map" 2),
    (⟨10, by decide⟩, .addAttempt "map" 0 "a" false),
    (⟨20, by decide⟩, .addAttempt "map" 1 "b" false)]

/-- The attempts of `sampleTwoTasks` finish, in both orders: the vertex is finished by the later
one. -/
theorem reports_commute_sample :
    let g := run ∅ sampleTwoTasks
    let now : Instant := ⟨30, by decide⟩
    let later : Instant := ⟨40, by decide⟩
    let report : Report := ⟨⟨"map", 0, 1, 0⟩, .success none (some 7)⟩
    let other : Report := ⟨⟨"map", 1, 1, 0⟩, .success (some 3) none⟩
    ¬report.id.SameTask other.id ∧
    g.answer now report.operation = .ok (.finished (.applied ⟨[], false⟩)) ∧
    (g.after now report.operation).answer later other.operation =
      .ok (.finished (.applied ⟨[], true⟩)) ∧
    g.answer later other.operation = .ok (.finished (.applied ⟨[], false⟩)) ∧
    (g.after later other.operation).answer now report.operation =
      .ok (.finished (.applied ⟨[], true⟩)) := by
  intro g now later report other
  have hdistinct : ¬report.id.SameTask other.id := by decide
  have hwin : g.answer now report.operation = .ok (.finished (.applied ⟨[], false⟩)) := by
    decide +kernel
  have hwin' : g.answer later other.operation = .ok (.finished (.applied ⟨[], false⟩)) := by
    decide +kernel
  have hfinished : ((g.after now report.operation).after later other.operation).isFinished
      report.id.vertex = true := by
    decide +kernel
  obtain ⟨-, -, -, hwins⟩ := reports_commute g now later report other hdistinct
  obtain ⟨-, -, hlast, hlast'⟩ := hwins _ _ rfl hwin hwin'
  rw [hfinished] at hlast hlast'
  exact ⟨hdistinct, hwin, hlast', hwin', hlast⟩

end ExecutionGraph

end AdaptiveBatch
