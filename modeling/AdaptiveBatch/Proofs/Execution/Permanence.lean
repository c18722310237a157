import AdaptiveBatch.Proofs.Execution.Operations

/-! # What lasts as long as a generation

Within a generation a task is won once, and an attempt ends once: whatever is reported afterwards,
in whatever order, neither the winner nor an ended attempt changes.

* **`Task.Lasts`**, **`VertexExecution.Lasts`** — the winners and the ended attempts stay;
* **`ExecutionGraph.Effect.lasts`** — an operation starts the generation of a vertex over, or
  everything of it that has ended lasts;
* **`ExecutionGraph.one_winner_and_final_ends`** — the same for all operations from an empty graph
  on. -/

namespace AdaptiveBatch

/-! ## Attempts -/

namespace Attempt

variable {a : Attempt} {now : Instant}

/-- Whether an attempt has ended, as its status says: it is `finished`, `failed` or `canceled`. -/
theorem isActive_eq_false_iff : a.isActive = false ↔
    a.status = .finished ∨ a.status = .failed ∨ a.status = .canceled := by
  unfold isActive
  cases a.status <;> simp [AttemptStatus.isActive]

/-- A cancellation comes too late for an ended attempt: `a.cancel now = a`. -/
theorem cancel_of_ended (h : a.isActive = false) : a.cancel now = a := by
  rw [cancel, h, if_neg Bool.false_ne_true]

end Attempt

/-! ## Tasks -/

/-- The winner of a task and its ended attempts are those that it had. -/
structure Task.Lasts (t t' : Task) : Prop where
  /-- A winner stays. -/
  winner : ∀ n, t.winner = some n → t'.winner = some n
  /-- An ended attempt stays. -/
  ended : ∀ (n : Nat) (a : Attempt), t.attempts[n]? = some a → a.isActive = false →
    t'.attempts[n]? = some a

namespace Task

variable {vertex : VertexId} {generation k n m : Nat} {t t' t'' : Task} {a : Attempt}
  {now : Instant}

/-- A task that is not changed keeps its winner and its ended attempts. -/
theorem Lasts.refl (t : Task) : t.Lasts t := ⟨fun _ h => h, fun _ _ h _ => h⟩

/-- What lasts from `t` to `t'` and from there to `t''` lasts from `t` to `t''`. -/
theorem Lasts.trans (h : t.Lasts t') (h' : t'.Lasts t'') : t.Lasts t'' where
  winner n hn := h'.winner n (h.winner n hn)
  ended n a ha hend := h'.ended n a (h.ended n a ha hend) hend

/-- One more attempt changes neither the winner nor the attempts that have ended. -/
theorem lasts_push : t.Lasts (t.push a) where
  winner _ hn := hn
  ended n b hb _ := by
    have hlt := (List.getElem?_eq_some_iff.1 hb).1
    rw [getElem?_push, if_neg (Nat.ne_of_lt hlt)]
    exact hb

/-- A change of an attempt that is still active touches neither the winner nor the attempts that
have ended. -/
theorem lasts_modifyAttempt {f : Attempt → Attempt} (h : t.IsActive n) :
    t.Lasts (t.modifyAttempt n f) where
  winner _ hm := hm
  ended m b hb hend := by
    rw [getElem?_modifyAttempt, if_neg]
    · exact hb
    · -- The attempt that makes the step has not ended.
      rintro rfl
      obtain ⟨a, ha, hactive⟩ := h
      obtain rfl : a = b := Option.some.inj (ha.symm.trans hb)
      rw [hend] at hactive
      cases hactive

/-- A win cancels the rivals of the winner `n` and keeps the attempts that have ended before. -/
theorem lasts_win (ht : t.WellFormed vertex generation k) (h : t.IsActive n) (hw : t.winner = none)
    (inputBytes outputBytes : Option Nat) : t.Lasts (t.win n inputBytes outputBytes now) where
  winner m hm := by
    rw [hw] at hm
    cases hm
  ended m b hb hend := by
    have hne : b.id.number ≠ n := by
      rw [ht.number_eq hb]
      rintro rfl
      obtain ⟨a, ha, hactive⟩ := h
      obtain rfl : a = b := Option.some.inj (ha.symm.trans hb)
      rw [hend] at hactive
      cases hactive
    rw [getElem?_win, hb, Option.map_some, if_neg hne, Attempt.cancel_of_ended hend]

/-- At most one attempt has finished: `n = m` for the numbers of any two. -/
theorem WellFormed.finished_unique {b : Attempt} (h : t.WellFormed vertex generation k)
    (ha : t.attempts[n]? = some a) (hb : t.attempts[m]? = some b) (hsa : a.status = .finished)
    (hsb : b.status = .finished) : n = m := by
  have hn : t.winner = some n := (h.winner_iff n).2 ⟨a, ha, hsa⟩
  have hm : t.winner = some m := (h.winner_iff m).2 ⟨b, hb, hsb⟩
  exact Option.some.inj (hn.symm.trans hm)

end Task

/-! ## Vertices -/

/-- The same generation, whose tasks keep their winners and their ended attempts. -/
structure VertexExecution.Lasts (v v' : VertexExecution) : Prop where
  /-- It is the same generation. -/
  generation_eq : v'.generation = v.generation
  /-- It has the same tasks. -/
  task : ∀ (k : Nat) (t : Task), v.tasks[k]? = some t → ∃ t', v'.tasks[k]? = some t' ∧ t.Lasts t'

namespace VertexExecution

variable {v v' v'' : VertexExecution} {k : Nat} {f : Task → Task}

/-- A generation that is not changed keeps its winners and its ended attempts. -/
theorem Lasts.refl (v : VertexExecution) : v.Lasts v := ⟨rfl, fun _ t ht => ⟨t, ht, .refl t⟩⟩

/-- What lasts from `v` to `v'` and from there to `v''` lasts from `v` to `v''`. -/
theorem Lasts.trans (h : v.Lasts v') (h' : v'.Lasts v'') : v.Lasts v'' where
  generation_eq := h'.generation_eq.trans h.generation_eq
  task k t ht := by
    obtain ⟨t', ht', hlast⟩ := h.task k t ht
    obtain ⟨t'', ht'', hlast'⟩ := h'.task k t' ht'
    exact ⟨t'', ht'', hlast.trans hlast'⟩

/-- If the winner and the ended attempts of task `k` last under `f`, so do those of its whole
generation. -/
theorem lasts_modify (hf : ∀ t ∈ v.tasks[k]?, t.Lasts (f t)) :
    v.Lasts { v with tasks := v.tasks.modify k f } where
  generation_eq := rfl
  task _ _ ht := exists_getElem?_modify Task.Lasts.refl hf ht

end VertexExecution

/-! ## Graphs -/

namespace ExecutionGraph

variable {g g' : ExecutionGraph} {now : Instant} {vertex : VertexId} {v : VertexExecution}

/-- Changing a task of any vertex `other` leaves a generation in which everything that has ended
lasts, provided it does in that task. -/
theorem lasts_modifyTask {k : Nat} {f : Task → Task} (other : VertexId)
    (hv : g.get? vertex = some v)
    (hf : ∀ v t, g.get? other = some v → v.tasks[k]? = some t → t.Lasts (f t)) :
    ∃ v', (g.modifyTask other k f).get? vertex = some v' ∧ v.Lasts v' := by
  apply exists_get?_modifyTask .refl hv
  rintro rfl
  exact VertexExecution.lasts_modify fun t ht => hf v t hv ht

/-- An operation replaces the generation of a vertex by the next one, or all that has ended in it
lasts. -/
theorem Effect.lasts {replaced? : Option VertexId} (h : g.Effect now replaced? g')
    (hg : g.WellFormed) (hv : g.get? vertex = some v) : ∃ v', g'.get? vertex = some v' ∧
      if replaced? = some vertex then v'.generation = v.generation + 1 else v.Lasts v' := by
  cases h with
  | nothing => exact ⟨v, hv, VertexExecution.Lasts.refl v⟩
  | regenerate other pos =>
    rw [get?_regenerate]
    by_cases hother : other = vertex
    · subst hother
      rw [if_pos rfl]
      refine ⟨_, rfl, ?_⟩
      rw [if_pos rfl]
      show g.nextGeneration other = v.generation + 1
      rw [nextGeneration, hv]
      rfl
    · rw [if_neg hother]
      refine ⟨v, hv, ?_⟩
      rw [if_neg fun heq => hother (Option.some.inj heq)]
      exact .refl v
  | push next created => exact lasts_modifyTask _ hv fun _ _ _ _ => Task.lasts_push
  | advance active id_eq not_finished =>
    -- The step is made by an active attempt of the task.
    obtain ⟨w, t, hw, -, htask, hactive⟩ := active.exists_task
    apply lasts_modifyTask _ hv
    intro w' t' hw' ht'
    obtain ⟨rfl, rfl⟩ := task_unique hw htask hw' ht'
    exact Task.lasts_modifyAttempt hactive
  | win awaits inputBytes outputBytes =>
    obtain ⟨w, t, hw, -, htask, -, hactive, hopen⟩ := awaits.exists_task
    apply lasts_modifyTask _ hv
    intro w' t' hw' ht'
    obtain ⟨rfl, rfl⟩ := task_unique hw htask hw' ht'
    exact Task.lasts_win ((hg _ w hw).task _ t htask) hactive hopen inputBytes outputBytes

/-- How often operations replace the generation of a vertex. -/
def replacements (vertex : VertexId) (ops : List (Instant × Operation)) : Nat :=
  ops.countP fun op => op.2.replaced? = some vertex

/-- The generations of a vertex are counted by `replacements`; without a new one, all that has ended
lasts. -/
theorem WellFormed.run_lasts (hg : g.WellFormed) (hv : g.get? vertex = some v)
    (ops : List (Instant × Operation)) : ∃ v', (g.run ops).get? vertex = some v' ∧
      v'.generation = v.generation + replacements vertex ops ∧
      (v'.generation = v.generation → v.Lasts v') := by
  induction ops generalizing g v with
  | nil => exact ⟨v, hv, rfl, fun _ => .refl v⟩
  | cons first rest ih =>
    obtain ⟨now, op⟩ := first
    have heffect := g.effect_after now op
    obtain ⟨v₁, hv₁, hfirst⟩ := heffect.lasts hg hv
    obtain ⟨v₂, hv₂, hcount, hrest⟩ := ih (heffect.wellFormed hg) hv₁
    refine ⟨v₂, hv₂, ?_⟩
    have hcons : replacements vertex ((now, op) :: rest) =
        replacements vertex rest + if op.replaced? = some vertex then 1 else 0 := by
      simp [replacements, List.countP_cons]
    rw [hcons]
    split at hfirst
    · -- The number of the generation has grown, and it never falls.
      next hreplaced =>
      rw [if_pos hreplaced]
      constructor
      · omega
      · intro hsame
        omega
    · next hkept =>
      rw [if_neg hkept, hcount, hfirst.generation_eq]
      refine ⟨rfl, fun hsame => hfirst.trans (hrest ?_)⟩
      rw [hcount, hfirst.generation_eq]
      exact hsame

/-- **One winner, and ends are final.** Whatever operations are carried out, in any order and with
any arguments, each vertex has as many tasks as its `parallelism` says, and at least one; the
identity of an attempt names its place; a task has at most one `finished` attempt, and that is its
`winner`. As long as none of the `replacements` is about the vertex, a winner stays the winner and
an attempt that has finished, failed or been canceled stays as it is. -/
theorem one_winner_and_final_ends (ops more : List (Instant × Operation)) (vertex : VertexId)
    (v : VertexExecution) (hv : (run ∅ ops).get? vertex = some v) :
    v.tasks.length = v.parallelism ∧ 1 ≤ v.parallelism ∧
    (∀ (k : Nat) (t : Task), v.tasks[k]? = some t → t.subtask = k ∧
      (∀ (n : Nat) (a : Attempt), t.attempts[n]? = some a →
        a.id = { vertex, subtask := k, generation := v.generation, number := n }) ∧
      (∀ (m n : Nat) (a b : Attempt), t.attempts[m]? = some a → t.attempts[n]? = some b →
        a.status = .finished → b.status = .finished → m = n) ∧
      ∀ n : Nat, t.winner = some n ↔
        ∃ a : Attempt, t.attempts[n]? = some a ∧ a.status = .finished) ∧
    ∃ v', (run ∅ (ops ++ more)).get? vertex = some v' ∧
      v'.generation = v.generation + replacements vertex more ∧
      (v'.generation = v.generation → ∀ (k : Nat) (t : Task), v.tasks[k]? = some t →
        ∃ t', v'.tasks[k]? = some t' ∧ (∀ n : Nat, t.winner = some n → t'.winner = some n) ∧
          ∀ (n : Nat) (a : Attempt), t.attempts[n]? = some a →
            a.status = .finished ∨ a.status = .failed ∨ a.status = .canceled →
              t'.attempts[n]? = some a) := by
  have hg : (run ∅ ops).WellFormed := wellFormed_empty.run ops
  have hwf := hg vertex v hv
  refine ⟨hwf.length_tasks, hwf.parallelism_pos, ?_, ?_⟩
  · intro k t ht
    have htask := hwf.task k t ht
    exact ⟨htask.subtask_eq, htask.id_eq, fun m n a b => htask.finished_unique, htask.winner_iff⟩
  · obtain ⟨v', hv', hcount, hlasts⟩ := hg.run_lasts hv more
    rw [run_append]
    refine ⟨v', hv', hcount, fun hsame k t ht => ?_⟩
    obtain ⟨t', ht', hlast⟩ := (hlasts hsame).task k t ht
    refine ⟨t', ht', hlast.winner, ?_⟩
    intro n a ha hend
    exact hlast.ended n a ha (Attempt.isActive_eq_false_iff.2 hend)

/-- A task with two attempts, of which the second finishes. -/
def sampleOps : List (Instant × Operation) :=
  [(.origin, .startGeneration "map" 1),
    (⟨1, by decide⟩, .addAttempt "map" 0 "a" false),
    (⟨2, by decide⟩, .addAttempt "map" 0 "b" true),
    (⟨3, by decide⟩, .finishAttempt ⟨"map", 0, 1, 1⟩ none (some 7))]

/-- Late reports about both attempts, and a restart of another vertex. -/
def sampleMore : List (Instant × Operation) :=
  [(⟨4, by decide⟩, .finishAttempt ⟨"map", 0, 1, 0⟩ none none),
    (⟨5, by decide⟩, .failAttempt ⟨"map", 0, 1, 1⟩),
    (⟨6, by decide⟩, .startGeneration "sink" 2)]

/-- The winner of the sample, attempt `1`, outlives the late reports of `sampleMore`. -/
theorem one_winner_and_final_ends_sample : ∃ v v' t', (run ∅ sampleOps).get? "map" = some v ∧
    (run ∅ (sampleOps ++ sampleMore)).get? "map" = some v' ∧ v'.generation = v.generation ∧
      v'.tasks[0]? = some t' ∧ t'.winner = some 1 := by
  have heval : ((run ∅ sampleOps).get? "map").any
      (fun v => v.tasks[0]?.any fun t => t.winner = some 1) = true := by
    decide +kernel
  obtain ⟨v, hv, htask⟩ := (Option.any_eq_true _ _).1 heval
  obtain ⟨t, ht, hw⟩ := (Option.any_eq_true _ _).1 htask
  obtain ⟨-, -, -, v', hv', hcount, hlasts⟩ :=
    one_winner_and_final_ends sampleOps sampleMore "map" v hv
  have hnone : replacements "map" sampleMore = 0 := by decide
  have hsame : v'.generation = v.generation := by rw [hcount, hnone, Nat.add_zero]
  obtain ⟨t', ht', hwinner, -⟩ := hlasts hsame 0 t ht
  exact ⟨v, v', t', hv, hv', hsame, ht', hwinner 1 (of_decide_eq_true hw)⟩

end ExecutionGraph

end AdaptiveBatch
