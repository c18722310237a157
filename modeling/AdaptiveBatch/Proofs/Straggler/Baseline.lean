import AdaptiveBatch.Proofs.Execution.Commutation
import AdaptiveBatch.Proofs.Execution.Permanence
import AdaptiveBatch.Straggler.Baseline
import Mathlib

/-! # A baseline stays as it is

A baseline is computed anew at every check, from all tasks that are won by then. It is the same each
time: a won task keeps its winning attempt as it ended, and a task that is won later comes behind
the ones that make the sample, as long as its end is reported with a later time.

* **`Task.Follows`**, **`VertexExecution.Follows`** — a later state: the winners are those that
  there were, and others that ended late;
* **`ExecutionGraph.follows_after`**, **`ExecutionGraph.run_follows`** — what one operation and any
  number of them do to a generation that is not replaced;
* **`take_mergeSort_of_perm`** — the front of a sorted list does not change when elements are added
  that come behind it;
* **`DetectorConfig.baseline_frozen`** — the baseline is the same ever after. -/

namespace AdaptiveBatch

variable {vertex : VertexId} {late : Instant → Prop} {now : Instant}

/-! ## Winners of a later state -/

/-- A later state of a task: it has the same winning attempt or none, or it was open and is won by
an attempt that ended late. -/
inductive Task.Follows (late : Instant → Prop) (t t' : Task) : Prop
  | same (h : t'.winningAttempt? = t.winningAttempt?)
  | won {a : Attempt} {e : Instant} (isOpen : t.winningAttempt? = none)
      (winner : t'.winningAttempt? = some a) (ended : a.endedAt = some e) (h : late e)

namespace Task

variable {t t' t'' : Task} {a : Attempt} {generation k n : Nat}

/-- A task that is not changed is a later state of itself. -/
theorem Follows.refl (t : Task) : t.Follows late t := .same rfl

/-- What follows `t'`, which follows `t`, follows `t`. -/
theorem Follows.trans (h : t.Follows late t') (h' : t'.Follows late t'') : t.Follows late t'' := by
  cases h with
  | same heq =>
    cases h' with
    | same heq' => exact .same (heq'.trans heq)
    | won isOpen winner ended hlate => exact .won (heq.symm.trans isOpen) winner ended hlate
  | won isOpen winner ended hlate =>
    cases h' with
    | same heq' => exact .won isOpen (heq'.trans winner) ended hlate
    | won isOpen' =>
      -- A task that has been won is not open any more.
      rw [winner] at isOpen'
      cases isOpen'

/-- A task without a winner has no winning attempt. -/
theorem winningAttempt?_of_winner_eq_none (h : t.winner = none) : t.winningAttempt? = none := by
  rw [winningAttempt?, h]
  rfl

/-- The winner of a won task is there: it is the attempt number `n`, and has ended. -/
theorem WellFormed.winningAttempt?_eq (ht : t.WellFormed vertex generation k)
    (hw : t.winner = some n) :
    ∃ a, t.attempts[n]? = some a ∧ a.isActive = false ∧ t.winningAttempt? = some a := by
  obtain ⟨a, ha, hs⟩ := (ht.winner_iff n).1 hw
  refine ⟨a, ha, Attempt.isActive_eq_false_iff.2 (Or.inl hs), ?_⟩
  rw [winningAttempt?, hw]
  exact ha

/-- The winning attempt has ended, so it `Lasts`, and a task that keeps its winner follows. -/
theorem Follows.of_lasts (ht : t.WellFormed vertex generation k) (h : t.Lasts t')
    (hw : t'.winner = t.winner) : t.Follows late t' := by
  refine .same ?_
  cases hwinner : t.winner with
  | none =>
    rw [winningAttempt?_of_winner_eq_none hwinner,
      winningAttempt?_of_winner_eq_none (hw.trans hwinner)]
  | some n =>
    obtain ⟨a, ha, hend, heq⟩ := ht.winningAttempt?_eq hwinner
    rw [heq, winningAttempt?, hw, hwinner]
    exact h.ended n a ha hend

/-- The winning attempt belongs to the task: its `subtask` is `k`. -/
theorem WellFormed.subtask_of_winningAttempt? (ht : t.WellFormed vertex generation k)
    (ha : t.winningAttempt? = some a) : a.id.subtask = k := by
  obtain ⟨n, -, hn⟩ := Option.bind_eq_some_iff.1 ha
  rw [ht.id_eq n a hn]

/-- A task that is won `now` is won by an attempt that ends `now`. -/
theorem winningAttempt?_win (ht : t.WellFormed vertex generation k) (h : t.IsActive n)
    (inputBytes outputBytes : Option Nat) : ∃ a,
      (t.win n inputBytes outputBytes now).winningAttempt? = some a ∧ a.endedAt = some now := by
  obtain ⟨a, ha, -⟩ := h
  refine ⟨a.finish inputBytes outputBytes now, ?_, rfl⟩
  show (t.win n inputBytes outputBytes now).attempts[n]? = _
  rw [getElem?_win, ha, Option.map_some, if_pos (ht.number_eq ha)]

end Task

namespace VertexExecution

/-- A later state of the same generation. -/
structure Follows (late : Instant → Prop) (v v' : VertexExecution) : Prop where
  /-- It belongs to the same vertex. -/
  vertex_eq : v'.vertex = v.vertex
  /-- It has the same parallelism. -/
  parallelism_eq : v'.parallelism = v.parallelism
  /-- It has as many tasks. -/
  length_eq : v'.tasks.length = v.tasks.length
  /-- Each task has kept its winner, or has been won late. -/
  task : ∀ (k : Nat) (t : Task), v.tasks[k]? = some t →
    ∃ t', v'.tasks[k]? = some t' ∧ t.Follows late t'

variable {v v' v'' : VertexExecution}

/-- A generation that is not changed is a later state of itself. -/
theorem Follows.refl (v : VertexExecution) : v.Follows late v :=
  ⟨rfl, rfl, rfl, fun _ t ht => ⟨t, ht, .refl t⟩⟩

/-- What follows `v'`, which follows `v`, follows `v`. -/
theorem Follows.trans (h : v.Follows late v') (h' : v'.Follows late v'') : v.Follows late v'' where
  vertex_eq := h'.vertex_eq.trans h.vertex_eq
  parallelism_eq := h'.parallelism_eq.trans h.parallelism_eq
  length_eq := h'.length_eq.trans h.length_eq
  task k t ht := by
    obtain ⟨t', ht', hfirst⟩ := h.task k t ht
    obtain ⟨t'', ht'', hrest⟩ := h'.task k t' ht'
    exact ⟨t'', ht'', hfirst.trans hrest⟩

/-- A generation follows when its changed task `k` does. -/
theorem follows_modify {k : Nat} {f : Task → Task} (hf : ∀ t ∈ v.tasks[k]?, t.Follows late (f t)) :
    v.Follows late { v with tasks := v.tasks.modify k f } where
  vertex_eq := rfl
  parallelism_eq := rfl
  length_eq := List.length_modify f v.tasks k
  task _ _ ht := exists_getElem?_modify Task.Follows.refl hf ht

/-- The tasks of a later state follow those of the earlier one, one by one. -/
theorem Follows.forall₂ (h : v.Follows late v') :
    List.Forall₂ (Task.Follows late) v.tasks v'.tasks := by
  refine List.forall₂_of_length_eq_of_get h.length_eq.symm fun k hk hk' => ?_
  obtain ⟨t', ht', hfollows⟩ := h.task k _ (List.getElem?_eq_getElem hk)
  obtain rfl := Option.some.inj ((List.getElem?_eq_getElem hk').symm.trans ht')
  exact hfollows

/-- The winners of a later state are those that there were, with others, `added`, that ended
late. -/
theorem Follows.winners_perm (h : v.Follows late v') : ∃ added : List Attempt,
    v'.winners.Perm (v.winners ++ added) ∧ ∀ a ∈ added, ∃ e ∈ a.endedAt, late e := by
  unfold winners
  generalize v.tasks = tasks, v'.tasks = tasks', h.forall₂ = htasks
  induction htasks with
  | nil => exact ⟨[], .refl _, fun _ ha => absurd ha List.not_mem_nil⟩
  | @cons t t' _ _ hfirst _ ih =>
    obtain ⟨added, hperm, hadded⟩ := ih
    cases hfirst with
    | same heq =>
      refine ⟨added, ?_, hadded⟩
      rw [List.filterMap_cons, List.filterMap_cons, heq]
      cases t.winningAttempt? with
      | none => exact hperm
      | some a => exact hperm.cons a
    | @won a e isOpen winner ended hlate =>
      refine ⟨a :: added, ?_, List.forall_mem_cons.2 ⟨⟨e, ended, hlate⟩, hadded⟩⟩
      rw [List.filterMap_cons, List.filterMap_cons, isOpen, winner]
      exact (hperm.cons a).trans List.perm_middle.symm

end VertexExecution

namespace ExecutionGraph

/-- The vertex of which an operation reports a task finished. -/
def Operation.finished? : Operation → Option VertexId
  | .finishAttempt id _ _ => some id.vertex
  | _ => none

variable {g : ExecutionGraph} {v : VertexExecution}

/-- A generation is followed when the changed task is, where `other` is its vertex. -/
theorem follows_modifyTask {k : Nat} {f : Task → Task} (other : VertexId)
    (hv : g.get? vertex = some v)
    (hf : ∀ t, other = vertex → v.tasks[k]? = some t → t.Follows late (f t)) :
    ∃ v', (g.modifyTask other k f).get? vertex = some v' ∧ v.Follows late v' :=
  exists_get?_modifyTask .refl hv fun h => VertexExecution.follows_modify fun t ht => hf t h ht

/-- What a report does to the task of an awaited attempt leaves a later state of it; it is won only
by a report of success. -/
theorem Report.follows_change {t : Task} {generation k : Nat} (report : Report)
    (ht : t.WellFormed vertex generation k) (hactive : t.IsActive report.id.number)
    (hw : t.winner = none) (hlate : report.operation.finished? = some report.id.vertex → late now) :
    t.Follows late (report.change now t) := by
  have hopen := Task.winningAttempt?_of_winner_eq_none hw
  obtain ⟨id, news⟩ := report
  cases news with
  | success inputBytes outputBytes =>
    obtain ⟨a, ha, hend⟩ := Task.winningAttempt?_win ht hactive inputBytes outputBytes
    exact .won hopen ha hend (hlate rfl)
  | running | progress | failure | cancellation =>
    -- The task stays open.
    refine .same (Eq.trans ?_ hopen.symm)
    exact Task.winningAttempt?_of_winner_eq_none hw

/-- What a report does to the graph leaves a later state of the generation of `vertex`. -/
theorem follows_report (report : Report) (hg : g.WellFormed) (hv : g.get? vertex = some v)
    (hlate : report.operation.finished? = some vertex → late now) :
    ∃ v', (g.after now report.operation).get? vertex = some v' ∧ v.Follows late v' := by
  by_cases hid : g.Awaits report.id
  · rw [after_of_awaits hid]
    obtain ⟨w, t, hw, -, htask, -, hactive, hopen⟩ := hid.exists_task
    apply follows_modifyTask _ hv
    rintro t' rfl ht'
    obtain ⟨rfl, rfl⟩ := task_unique hw htask hv ht'
    exact report.follows_change ((hg _ w hw).task _ t htask) hactive hopen hlate
  · rw [after_of_not_awaits hid]
    exact ⟨v, hv, .refl v⟩

/-- An operation that does not replace a generation keeps its winners; a task of it is won only when
that is what the operation reports, `op.finished?`. -/
theorem follows_after (op : Operation) (hg : g.WellFormed) (hv : g.get? vertex = some v)
    (hkept : op.replaced? ≠ some vertex) (hlate : op.finished? = some vertex → late now) :
    ∃ v', (g.after now op).get? vertex = some v' ∧ v.Follows late v' := by
  have hwf (k : Nat) (t : Task) (ht : v.tasks[k]? = some t) := (hg vertex v hv).task k t ht
  cases op with
  | startGeneration other parallelism =>
    rw [after, perform, startGeneration_eq]
    by_cases hpos : parallelism = 0
    · rw [if_pos hpos]
      exact ⟨v, hv, .refl v⟩
    · rw [Operation.replaced?, if_neg hpos] at hkept
      rw [if_neg hpos]
      refine ⟨v, ?_, .refl v⟩
      show (g.regenerate other parallelism now).get? vertex = some v
      rw [get?_regenerate, if_neg fun heq => hkept (congrArg some heq)]
      exact hv
  | addAttempt other subtask node speculative =>
    unfold after
    cases h : g.perform now (.addAttempt other subtask node speculative) with
    | error e => exact ⟨v, hv, .refl v⟩
    | ok g' =>
      obtain ⟨id, h⟩ := exists_of_map_snd h
      obtain ⟨-, rfl⟩ := addAttempt_eq_ok h
      exact follows_modifyTask _ hv fun t _ ht => .of_lasts (hwf _ t ht) Task.lasts_push rfl
  | markDeploying id =>
    unfold after
    cases h : g.perform now (.markDeploying id) with
    | error e => exact ⟨v, hv, .refl v⟩
    | ok g' =>
      obtain ⟨_, h⟩ := exists_of_map_snd h
      obtain ⟨hactive, rfl⟩ := markDeploying_eq_ok h
      obtain ⟨w, t, hw, -, htask, hslot⟩ := hactive.exists_task
      apply follows_modifyTask _ hv
      rintro t' rfl ht'
      obtain ⟨rfl, rfl⟩ := task_unique hw htask hv ht'
      exact .of_lasts (hwf _ t ht') (Task.lasts_modifyAttempt hslot) rfl
  | markRunning id => exact follows_report ⟨id, .running⟩ hg hv hlate
  | recordProgress id bytes => exact follows_report ⟨id, .progress bytes⟩ hg hv hlate
  | finishAttempt id inputBytes outputBytes =>
    exact follows_report ⟨id, .success inputBytes outputBytes⟩ hg hv hlate
  | failAttempt id => exact follows_report ⟨id, .failure⟩ hg hv hlate
  | cancelAttempt id => exact follows_report ⟨id, .cancellation⟩ hg hv hlate

/-- Any number of operations that do not replace a generation keep its winners; its tasks are won
only late, when operations report that. -/
theorem run_follows (ops : List (Instant × Operation)) (hg : g.WellFormed)
    (hv : g.get? vertex = some v) (hkept : ∀ op ∈ ops, op.2.replaced? ≠ some vertex)
    (hlate : ∀ op ∈ ops, op.2.finished? = some vertex → late op.1) :
    ∃ v', (g.run ops).get? vertex = some v' ∧ v.Follows late v' := by
  induction ops generalizing g v with
  | nil => exact ⟨v, hv, .refl v⟩
  | cons first rest ih =>
    obtain ⟨hkept₁, hkept⟩ := List.forall_mem_cons.1 hkept
    obtain ⟨hlate₁, hlate⟩ := List.forall_mem_cons.1 hlate
    obtain ⟨v₁, hv₁, hfirst⟩ := follows_after first.2 hg hv hkept₁ hlate₁
    obtain ⟨v₂, hv₂, hrest⟩ :=
      ih ((g.effect_after first.1 first.2).wellFormed hg) hv₁ hkept hlate
    exact ⟨v₂, hv₂, hfirst.trans hrest⟩

end ExecutionGraph

/-! ## The first to end -/

section Sorting

variable {α : Type} {le : α → α → Bool} {l l' added : List α} {n : Nat}

/-- The first `n` elements of a sorted list do not change when elements are `added` that come behind
them. -/
theorem take_mergeSort_of_perm (htotal : ∀ a b, le a b || le b a)
    (htrans : ∀ a b c, le a b → le b c → le a c)
    (hantisymm : ∀ a ∈ l', ∀ b ∈ l', le a b → le b a → a = b) (hperm : l'.Perm (l ++ added))
    (hn : n ≤ l.length) (hbehind : ∀ a ∈ (l.mergeSort le).take n, ∀ b ∈ added, le a b) :
    (l'.mergeSort le).take n = (l.mergeSort le).take n := by
  have hlength : ((l.mergeSort le).take n).length = n := by
    rw [List.length_take, List.length_mergeSort, Nat.min_eq_left hn]
  have hsorted := List.pairwise_mergeSort htrans htotal l
  have hrest := List.pairwise_mergeSort htrans htotal ((l.mergeSort le).drop n ++ added)
  -- The front, and behind it what is left and what is added, is a sorted list of all elements.
  have hpairwise : ((l.mergeSort le).take n ++
      ((l.mergeSort le).drop n ++ added).mergeSort le).Pairwise (le · ·) := by
    rw [← List.take_append_drop n (l.mergeSort le), List.pairwise_append] at hsorted
    obtain ⟨hfront, -, hleft⟩ := hsorted
    refine List.pairwise_append.2 ⟨hfront, hrest, fun a ha b hb => ?_⟩
    rcases List.mem_append.1 (List.mem_mergeSort.1 hb) with hb | hb
    · exact hleft a ha b hb
    · exact hbehind a ha b hb
  have hsame : l'.Perm ((l.mergeSort le).take n ++
      ((l.mergeSort le).drop n ++ added).mergeSort le) := by
    refine hperm.trans (((List.mergeSort_perm l le).symm.append_right added).trans ?_)
    rw [← List.take_append_drop n (l.mergeSort le), List.append_assoc, List.take_append_drop]
    exact (List.mergeSort_perm _ le).symm.append_left _
  have hall := ((List.mergeSort_perm l' le).trans hsame).eq_of_pairwise
    (fun a b ha hb => hantisymm a (List.mem_mergeSort.1 ha) b (hsame.mem_iff.2 hb))
    (List.pairwise_mergeSort htrans htotal l') hpairwise
  rw [hall, List.take_left' hlength]

end Sorting

namespace VertexExecution

/-- When an attempt ended; one that has not ended comes first. -/
def endRank (a : Attempt) : Nat := a.endedAt.elim 0 (·.nanos + 1)

/-- The order `endsBefore` is lexicographic: first by `endRank`, then by the index of the task. -/
theorem endsBefore_iff {a b : Attempt} : endsBefore a b = true ↔
    endRank a < endRank b ∨ endRank a = endRank b ∧ a.id.subtask ≤ b.id.subtask := by
  unfold endsBefore endRank
  cases a.endedAt with
  | none => cases b.endedAt <;> simp
  | some s =>
    cases b.endedAt with
    | none => simp
    | some e => simp [Instant.lt_iff, Instant.ext_iff]

/-- Of any two attempts one comes before the other, or with it, by `endsBefore`. -/
theorem endsBefore_total (a b : Attempt) : (endsBefore a b || endsBefore b a) = true := by
  rw [Bool.or_eq_true, endsBefore_iff, endsBefore_iff]
  omega

/-- The order `endsBefore` is transitive. -/
theorem endsBefore_trans (a b c : Attempt) (h : endsBefore a b = true)
    (h' : endsBefore b c = true) : endsBefore a c = true := by
  rw [endsBefore_iff] at *
  omega

/-- An attempt that has ended before the end `e` of another one comes before it. -/
theorem endsBefore_of_lt {a b : Attempt} {e : Instant} (hb : b.endedAt = some e)
    (h : ∀ s ∈ a.endedAt, s < e) : endsBefore a b = true := by
  refine endsBefore_iff.2 (Or.inl ?_)
  unfold endRank
  rw [hb]
  cases ha : a.endedAt with
  | none => exact Nat.succ_pos _
  | some s => exact Nat.succ_lt_succ (h s ha)

/-- Of the winners of a vertex, no two are of one task, `a.id.subtask`. -/
theorem WellFormed.eq_of_mem_winners {v : VertexExecution} {a b : Attempt}
    (hv : v.WellFormed vertex) (ha : a ∈ v.winners) (hb : b ∈ v.winners)
    (h : a.id.subtask = b.id.subtask) : a = b := by
  obtain ⟨t, ht, hat⟩ := List.mem_filterMap.1 ha
  obtain ⟨t', ht', hbt⟩ := List.mem_filterMap.1 hb
  obtain ⟨i, hi⟩ := List.mem_iff_getElem?.1 ht
  obtain ⟨j, hj⟩ := List.mem_iff_getElem?.1 ht'
  -- The identity of a winner names its task.
  have hij : i = j := by
    rw [← (hv.task i t hi).subtask_of_winningAttempt? hat,
      ← (hv.task j t' hj).subtask_of_winningAttempt? hbt, h]
  subst hij
  obtain rfl := Option.some.inj (hi.symm.trans hj)
  exact Option.some.inj (hat.symm.trans hbt)

/-- The first `n` winners of a later state are those of the earlier one, if all others ended
later. -/
theorem Follows.take_winnersByEndTime {v v' : VertexExecution} {n : Nat}
    (h : v.Follows late v') (hv' : v'.WellFormed vertex) (hn : n ≤ v.winners.length)
    (hlate : ∀ a ∈ v.winnersByEndTime.take n, ∀ s ∈ a.endedAt, ∀ e, late e → s < e) :
    v'.winnersByEndTime.take n = v.winnersByEndTime.take n ∧ n ≤ v'.winners.length := by
  obtain ⟨added, hperm, hadded⟩ := h.winners_perm
  constructor
  · refine take_mergeSort_of_perm endsBefore_total endsBefore_trans ?_ hperm hn ?_
    · intro a ha b hb hab hba
      rw [endsBefore_iff] at hab hba
      exact hv'.eq_of_mem_winners ha hb (by omega)
    · intro a ha b hb
      obtain ⟨e, hend, he⟩ := hadded b hb
      exact endsBefore_of_lt hend fun s hs => hlate a ha s hs e he
  · rw [hperm.length_eq, List.length_append]
    omega

end VertexExecution

/-! ## The baseline -/

namespace DetectorConfig

open ExecutionGraph

/-- The times after all ends in the sample of a vertex. -/
def AfterSample (d : DetectorConfig) (v : VertexExecution) (e : Instant) : Prop :=
  ∀ a ∈ v.winnersByEndTime.take (d.sampleSize v.parallelism), ∀ s ∈ a.endedAt, s < e

/-- A baseline is formed of enough winners, at least `d.sampleSize v.parallelism`. -/
theorem sampleSize_le_of_baseline? {d : DetectorConfig} {v : VertexExecution} {b : Baseline}
    (hb : d.baseline? v = some b) : d.sampleSize v.parallelism ≤ v.winners.length := by
  rw [← Nat.not_lt]
  intro hlt
  rw [baseline?, if_pos hlt] at hb
  cases hb

/-- With enough winners the baseline is that of the first `d.sampleSize v.parallelism` of them. -/
theorem baseline?_of_le {d : DetectorConfig} {v : VertexExecution}
    (hn : d.sampleSize v.parallelism ≤ v.winners.length) :
    d.baseline? v = d.baselineOf? v.vertex (sample v (d.sampleSize v.parallelism)) :=
  if_neg (Nat.not_lt.2 hn)

/-- **A baseline is frozen.** Take a vertex that has a baseline after some operations, and carry out
any others that do not replace its generation (`replaced?`), and report no task of it finished
before or when the last attempt of the sample ended (`AfterSample`). Whatever they report, add,
cancel or repeat, the baseline is the same. -/
theorem baseline_frozen (d : DetectorConfig) (ops more : List (Instant × Operation))
    (vertex : VertexId) (v : VertexExecution) (b : Baseline)
    (hv : (run ∅ ops).get? vertex = some v) (hb : d.baseline? v = some b)
    (hkept : ∀ op ∈ more, op.2.replaced? ≠ some vertex)
    (hlate : ∀ op ∈ more, op.2.finished? = some vertex → d.AfterSample v op.1) :
    ∃ v', (run ∅ (ops ++ more)).get? vertex = some v' ∧ d.baseline? v' = some b := by
  have hg : (run ∅ ops).WellFormed := wellFormed_empty.run ops
  -- What is won from now on is won at a time that comes after all ends in the sample.
  obtain ⟨v', hv', hfollows⟩ := run_follows more hg hv hkept hlate
  have hwf : v'.WellFormed vertex := hg.run more vertex v' hv'
  have hn := sampleSize_le_of_baseline? hb
  obtain ⟨hfirst, hn'⟩ := hfollows.take_winnersByEndTime hwf hn
    fun a ha s hs e he => he a ha s hs
  refine ⟨v', by rw [run_append]; exact hv', ?_⟩
  rw [← hfollows.parallelism_eq] at hn'
  rw [baseline?_of_le hn', hfollows.vertex_eq, hfollows.parallelism_eq, sample, hfirst, ← hb,
    baseline?_of_le hn]
  rfl

/-- Three tasks, of which the second and then the first finish: enough for a sample of two. -/
def sampleFinishes : List (Instant × Operation) :=
  [(.origin, .startGeneration "map" 3),
    (⟨11, by decide⟩, .addAttempt "map" 0 "a" false),
    (⟨11, by decide⟩, .addAttempt "map" 1 "b" false),
    (⟨11, by decide⟩, .addAttempt "map" 2 "c" false),
    (⟨21, by decide⟩, .markRunning ⟨"map", 1, 1, 0⟩),
    (⟨51, by decide⟩, .finishAttempt ⟨"map", 1, 1, 0⟩ (some 6) none),
    (⟨61, by decide⟩, .finishAttempt ⟨"map", 0, 1, 0⟩ (some 2) none)]

/-- Late reports about the finished tasks, a further attempt of one of them, another vertex, and the
end of the last task, which has read nothing. -/
def sampleLater : List (Instant × Operation) :=
  [(⟨56, by decide⟩, .recordProgress ⟨"map", 1, 1, 0⟩ 9),
    (⟨56, by decide⟩, .failAttempt ⟨"map", 0, 1, 0⟩),
    (⟨62, by decide⟩, .addAttempt "map" 0 "c" true),
    (⟨63, by decide⟩, .markRunning ⟨"map", 0, 1, 1⟩),
    (⟨64, by decide⟩, .startGeneration "sink" 1),
    (⟨71, by decide⟩, .finishAttempt ⟨"map", 0, 1, 1⟩ none none),
    (⟨81, by decide⟩, .finishAttempt ⟨"map", 2, 1, 0⟩ (some 0) none)]

/-- The baseline after `sampleFinishes` outlives the later operations of `sampleLater`. -/
theorem baseline_frozen_sample : ∃ v v' b, (run ∅ sampleFinishes).get? "map" = some v ∧
    DetectorConfig.baseline? {} v = some b ∧ b.median = ⟨30, by decide⟩ ∧
    (run ∅ (sampleFinishes ++ sampleLater)).get? "map" = some v' ∧
    DetectorConfig.baseline? {} v' = some b := by
  have heval : ((run ∅ sampleFinishes).get? "map").map (fun v =>
      (v.parallelism, v.winners.length, sample v 2, (v.winnersByEndTime.take 2).all fun a =>
        a.endedAt.all fun s => decide (s.nanos < 62))) =
      some (3, 2, [(⟨30, by decide⟩, some 6), (⟨50, by decide⟩, some 2)], true) := by
    cbv
  obtain ⟨v, hv, hdata⟩ := Option.map_eq_some_iff.1 heval
  simp only [Prod.mk.injEq, List.all_eq_true, Option.all_eq_true, decide_eq_true_eq] at hdata
  obtain ⟨hparallelism, hwinners, hsample, hends⟩ := hdata
  have hsize : sampleSize {} v.parallelism = 2 := by
    rw [hparallelism]
    decide +kernel
  have hmedian : weightedMedian [(⟨30, by decide⟩, 6), (⟨50, by decide⟩, 2)] =
      some ⟨30, by decide⟩ := by
    cbv
  have hb : ∃ b, baseline? {} v = some b ∧ b.median = ⟨30, by decide⟩ := by
    rw [baseline?_of_le (Nat.le_of_eq (hsize.trans hwinners.symm)), hsize, hsample]
    exact ⟨_, congrArg (Option.map _) hmedian, rfl⟩
  obtain ⟨b, hb, hthirty⟩ := hb
  have hkept : ∀ op ∈ sampleLater, op.2.replaced? ≠ some "map" := by decide
  have hlate : ∀ op ∈ sampleLater, op.2.finished? = some "map" → AfterSample {} v op.1 := by
    have htimes : ∀ op ∈ sampleLater, op.2.finished? = some "map" → 62 ≤ op.1.nanos := by decide
    intro op hop hfinished a ha s hs
    rw [hsize] at ha
    exact Nat.lt_of_lt_of_le (hends a ha s hs) (htimes op hop hfinished)
  obtain ⟨v', hv', hb'⟩ :=
    baseline_frozen {} sampleFinishes sampleLater "map" v b hv hb hkept hlate
  exact ⟨v, v', b, hv, hb, hthirty, hv', hb'⟩

end DetectorConfig

end AdaptiveBatch
