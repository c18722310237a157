import AdaptiveBatch.Proofs.Execution.Permanence
import AdaptiveBatch.Proofs.Execution.Stepwise

/-! # Discarded means untouched

An operation that fails, or that is discarded, has written nothing. Whether a report is discarded,
refused or applied is decided by the generation first, and then by the task and the number; one that
is applied changes the task that it names, and no other.

* **`ExecutionGraph.strayReason?_of_earlier`**, **`ExecutionGraph.strayReason?_of_unknown`** —
  reports about other generations and about attempts that do not exist;
* **`ExecutionGraph.discarded_is_untouched`** — the same for every graph reached from an empty one,
  with the operations carried out look-up by look-up. -/

namespace AdaptiveBatch.ExecutionGraph

variable {g g' : ExecutionGraph} {id : AttemptId} {v : VertexExecution} {now : Instant}

/-- A report about an earlier generation is stray, whatever it names there: its reason is
`.superseded v.generation`. -/
theorem strayReason?_of_earlier (hv : g.get? id.vertex = some v)
    (h : id.generation < v.generation) :
    g.strayReason? id = .ok (some (.superseded v.generation)) := by
  unfold strayReason?
  rw [hv]
  exact if_pos h

/-- A report about a later generation is refused with `.unknownAttempt id`, and so is one about a
task or a number that the current generation does not have. -/
theorem strayReason?_of_unknown (hv : g.get? id.vertex = some v)
    (h : v.generation < id.generation ∨ v.generation = id.generation ∧
      (v.tasks[id.subtask]?).bind (·.attempts[id.number]?) = none) :
    g.strayReason? id = .error (.unknownAttempt id) := by
  have hnone : g.attempt? id = none := by
    unfold attempt? taskOf?
    rw [hv]
    rcases h with hlt | ⟨hgen, hmissing⟩
    · simp [Nat.ne_of_lt hlt]
    · simpa [hgen] using hmissing
  have hle : ¬id.generation < v.generation := by omega
  unfold strayReason?
  simp only [hv, if_neg hle, hnone]
  cases g.taskOf? id <;> rfl

/-- Outside the task that a report names, an applied report changes nothing: other vertices are
equal, and of its own vertex only the entry `id.subtask` of `tasks` is set. -/
theorem get?_of_applied (hid : g.Awaits id) (f : Task → Task) :
    (∀ vertex, vertex ≠ id.vertex →
      (g.modifyTask id.vertex id.subtask f).get? vertex = g.get? vertex) ∧
    ∃ v t, g.get? id.vertex = some v ∧ v.generation = id.generation ∧
      v.tasks[id.subtask]? = some t ∧
      (g.modifyTask id.vertex id.subtask f).get? id.vertex =
        some { v with tasks := v.tasks.set id.subtask (f t) } := by
  obtain ⟨v, t, hv, hgen, htask, -⟩ := hid.exists_task
  constructor
  · intro vertex hne
    rw [get?_modifyTask, if_neg (Ne.symm hne)]
  · refine ⟨v, t, hv, hgen, htask, ?_⟩
    rw [get?_modifyTask, if_pos rfl, hv, Option.map_some, List.modify_eq_set_getElem?, htask]
    rfl

/-! ## Operations -/

/-- Nothing is written by an operation that fails: where `execute` ends in an error, it ends in the
graph it began with. -/
theorem eq_of_execute_eq_error {op : Operation} {e : ExecutionError} (hg : g.WellFormed)
    (h : op.execute now g = .error e g') : g' = g := by
  rw [execute_eq hg] at h
  cases hr : g.outcome now op with
  | ok r => rw [hr] at h; cases h
  | error e' => rw [hr] at h; cases h; rfl

/-- An operation that succeeds step by step ends where `g.outcome` as a whole leads. -/
theorem outcome_of_execute_eq_ok {op : Operation} {outcome : Outcome} (hg : g.WellFormed)
    (h : op.execute now g = .ok outcome g') : g.outcome now op = .ok (outcome, g') := by
  rw [execute_eq hg] at h
  cases hr : g.outcome now op with
  | ok r => rw [hr] at h; cases h; rfl
  | error e' => rw [hr] at h; cases h

/-- Only a report can be discarded, and then it changes nothing: `g' = g`. -/
theorem eq_of_isDiscarded {op : Operation} {outcome : Outcome}
    (h : g.outcome now op = .ok (outcome, g')) (hdiscarded : outcome.isDiscarded = true) :
    g' = g := by
  have hreport (report : Report) (h : g.outcome now report.operation = .ok (outcome, g')) :
      g' = g := by
    rcases outcome_report_eq_ok h with ⟨-, heq⟩ | ⟨-, rfl, -⟩
    · exact heq
    · rw [Report.isDiscarded_applied] at hdiscarded
      cases hdiscarded
  have hother {α : Type} {wrap : α → Outcome} {r : Except ExecutionError (α × ExecutionGraph)}
      (hwrap : ∀ a, (wrap a).isDiscarded = false)
      (h : Prod.map wrap (fun g' => g') <$> r = .ok (outcome, g')) : g' = g := by
    cases r with
    | error e => cases h
    | ok p =>
      cases h
      rw [hwrap] at hdiscarded
      cases hdiscarded
  cases op with
  | startGeneration vertex parallelism => exact hother (fun _ => rfl) h
  | addAttempt vertex subtask node speculative => exact hother (fun _ => rfl) h
  | markDeploying id => exact hother (fun _ => rfl) h
  | markRunning id => exact hreport ⟨id, .running⟩ h
  | recordProgress id bytes => exact hreport ⟨id, .progress bytes⟩ h
  | finishAttempt id inputBytes outputBytes => exact hreport ⟨id, .success _ _⟩ h
  | failAttempt id => exact hreport ⟨id, .failure⟩ h
  | cancelAttempt id => exact hreport ⟨id, .cancellation⟩ h

/-- **Discarded means untouched.** In every graph reached from an empty one, an operation that is
carried out look-up by look-up and write by write (`execute`) returns what it returns as a whole
(`outcome`). If it fails, or if its outcome `isDiscarded`, the graph is as it was. Where a vertex
has started, a report about an earlier generation is discarded as `superseded`; one about a later
generation, or about a task or an attempt that the current one does not have, is refused with
`unknownAttempt`. A report that is applied changes the one task that it names. -/
theorem discarded_is_untouched (ops : List (Instant × Operation)) (now : Instant) :
    let g := run ∅ ops
    (∀ op : Operation, op.execute now g = settle g (g.outcome now op)) ∧
    (∀ (op : Operation) e g', op.execute now g = .error e g' → g' = g) ∧
    (∀ (op : Operation) (outcome : Outcome) g', op.execute now g = .ok outcome g' →
      outcome.isDiscarded = true → g' = g) ∧
    (∀ (report : Report) (v : VertexExecution), g.get? report.id.vertex = some v →
      (report.id.generation < v.generation →
        report.operation.execute now g = .ok (report.discarded (.superseded v.generation)) g ∧
        (report.news ≠ .cancellation →
          (report.discarded (.superseded v.generation)).stray? =
            some (.superseded v.generation))) ∧
      (v.generation < report.id.generation ∨ v.generation = report.id.generation ∧
          (v.tasks[report.id.subtask]?).bind (·.attempts[report.id.number]?) = none →
        report.operation.execute now g = .error (.unknownAttempt report.id) g)) ∧
    ∀ (report : Report) (outcome : Outcome) g',
      report.operation.execute now g = .ok outcome g' → outcome.isDiscarded = false →
        (∀ vertex, vertex ≠ report.id.vertex → g'.get? vertex = g.get? vertex) ∧
        ∃ v t, g.get? report.id.vertex = some v ∧ v.generation = report.id.generation ∧
          v.tasks[report.id.subtask]? = some t ∧
          g'.get? report.id.vertex =
            some { v with tasks := v.tasks.set report.id.subtask (report.change now t) } := by
  intro g
  have hg : g.WellFormed := wellFormed_empty.run ops
  refine ⟨fun op => execute_eq hg now op, fun op e g' => eq_of_execute_eq_error hg, ?_, ?_, ?_⟩
  · intro op outcome g' h hdiscarded
    exact eq_of_isDiscarded (outcome_of_execute_eq_ok hg h) hdiscarded
  · intro report v hv
    refine ⟨fun hearlier => ⟨?_, fun hnews => Report.stray?_discarded hnews _⟩, fun hunknown => ?_⟩
    · rw [execute_eq hg, outcome_report, strayReason?_of_earlier hv hearlier]
      rfl
    · rw [execute_eq hg, outcome_report, strayReason?_of_unknown hv hunknown]
      rfl
  · intro report outcome g' h happlied
    rcases outcome_report_eq_ok (outcome_of_execute_eq_ok hg h) with ⟨hdiscarded, -⟩ | ⟨hid, -, rfl⟩
    · rw [happlied] at hdiscarded
      cases hdiscarded
    · exact get?_of_applied hid (report.change now)

/-- A vertex that has started over, with one attempt in its second generation. -/
def sampleRestarted : List (Instant × Operation) :=
  sampleOps ++ [(⟨7, by decide⟩, .startGeneration "map" 2),
    (⟨8, by decide⟩, .addAttempt "map" 1 "a" false)]

/-- Of four reports the first is about the old generation and is `superseded`, the second is about
one to come and the third about an attempt that was not added, so both are refused with
`unknownAttempt`; the fourth is applied. -/
theorem discarded_is_untouched_sample :
    let g := run ∅ sampleRestarted
    let now : Instant := ⟨9, by decide⟩
    (Operation.finishAttempt ⟨"map", 0, 1, 0⟩ none none).execute now g =
        .ok (.finished (.stray (.superseded 2))) g ∧
      (Operation.failAttempt ⟨"map", 1, 3, 0⟩).execute now g =
        .error (.unknownAttempt ⟨"map", 1, 3, 0⟩) g ∧
      (Operation.recordProgress ⟨"map", 1, 2, 1⟩ 7).execute now g =
        .error (.unknownAttempt ⟨"map", 1, 2, 1⟩) g ∧
      ∃ (outcome : Outcome) (g' : ExecutionGraph) (v : VertexExecution) (t : Task),
        (Operation.markRunning ⟨"map", 1, 2, 0⟩).execute now g = .ok outcome g' ∧
        outcome.isDiscarded = false ∧ g.get? "map" = some v ∧
        g'.get? "map" = some { v with tasks := v.tasks.set 1 (t.modifyAttempt 0 (·.run now)) } := by
  intro g now
  obtain ⟨-, -, -, hreports, happlied⟩ := discarded_is_untouched sampleRestarted now
  have hvertex : (g.get? "map").any (fun v => v.generation = 2 &&
      ((v.tasks[1]?).bind (·.attempts[1]?)).isNone) = true := by
    decide +kernel
  obtain ⟨v, hv, htests⟩ := (Option.any_eq_true _ _).1 hvertex
  obtain ⟨hgen, hmissing⟩ := Bool.and_eq_true_iff.1 htests
  have hgen : v.generation = 2 := of_decide_eq_true hgen
  have hrunning : (match (Operation.markRunning ⟨"map", 1, 2, 0⟩).execute now g with
      | .ok outcome _ => !outcome.isDiscarded
      | .error _ _ => false) = true := by
    decide +kernel
  refine ⟨?_, ?_, ?_, ?_⟩
  · rw [← hgen]
    exact ((hreports ⟨⟨"map", 0, 1, 0⟩, .success none none⟩ v hv).1 (by rw [hgen]; decide)).1
  · exact (hreports ⟨⟨"map", 1, 3, 0⟩, .failure⟩ v hv).2 (Or.inl (by rw [hgen]; decide))
  · exact (hreports ⟨⟨"map", 1, 2, 1⟩, .progress 7⟩ v hv).2
      (Or.inr ⟨hgen, Option.isNone_iff_eq_none.1 hmissing⟩)
  · cases hrun : (Operation.markRunning ⟨"map", 1, 2, 0⟩).execute now g with
    | error e g' => rw [hrun] at hrunning; cases hrunning
    | ok outcome g' =>
      rw [hrun] at hrunning
      have hkept : outcome.isDiscarded = false := by simpa using hrunning
      obtain ⟨-, v', t, hv', -, -, hafter⟩ :=
        happlied ⟨⟨"map", 1, 2, 0⟩, .running⟩ outcome g' hrun hkept
      exact ⟨outcome, g', v', t, rfl, hkept, hv', hafter⟩

end AdaptiveBatch.ExecutionGraph
