import AdaptiveBatch.Cluster.SlowNodes
import Mathlib.Data.List.Induction
import Mathlib.Data.List.Sort
import Mathlib.Data.String.Basic

/-! # The history behind the slow nodes

The registry of slow nodes keeps one end for each node. A later block replaces an earlier one, also
by an end that comes sooner, and a purge drops the ends that have passed. All the same it answers
what the list of all blocks says: an end that a purge drops lies before the purge, and so before
every time that is asked about from then on.

* **`SlowNodes.Change`**, **`SlowNodes.replay`** — blocks and purges, and the registry they lead to;
* **`SlowNodes.BlockedBy`** — what a history says about a node at a time;
* **`SlowNodes.isBlocked_of_block`**, **`SlowNodes.isBlocked_purge`** — what a change does to the
  answers;
* **`SlowNodes.answers_eq_history`** — the registry answers what its history says. -/

namespace AdaptiveBatch.SlowNodes

/-! ## Histories -/

/-- A change of the registry. -/
inductive Change
  /-- A node is blocked from `now` on. -/
  | block (node : NodeId) (now : Instant) (d : Duration)
  /-- The ends that have passed are dropped. -/
  | purge (now : Instant)

namespace Change

/-- The time of a change. -/
def time : Change → Instant
  | block _ now _ => now
  | purge now => now

/-- The registry after a change. -/
def apply (s : SlowNodes) : Change → Checked SlowNodes
  | block node now d => s.block node now d
  | purge now => .ok (s.purge now)

/-- The node that a change blocks, with the start and the length of the block. -/
def block? : Change → Option (NodeId × Instant × Duration)
  | block node now d => some (node, now, d)
  | purge _ => none

end Change

/-- The registry after a list of changes. -/
def replay (changes : List Change) : Checked SlowNodes := changes.foldlM Change.apply ∅

/-- The blocks of a history, in the order in which they were made. -/
def blocks (changes : List Change) : List (NodeId × Instant × Duration) :=
  changes.filterMap Change.block?

/-- The ends of all blocks lie on the clock. -/
def Fits (changes : List Change) : Prop :=
  ∀ block ∈ blocks changes, block.2.1.nanos + block.2.2.nanos < Instant.limit

/-- The start and the length of the last block of a node. -/
def lastBlock? (changes : List Change) (node : NodeId) : Option (Instant × Duration) :=
  (blocks changes).reverse.lookup node

/-- The last block of a node has not ended before a time. -/
def BlockedBy (changes : List Change) (node : NodeId) (t : Instant) : Prop :=
  ∃ now d, lastBlock? changes node = some (now, d) ∧ t.nanos ≤ now.nanos + d.nanos

variable {s s' : SlowNodes} {changes changes' : List Change} {node other : NodeId}
  {now t : Instant} {d : Duration}

/-- The `blocks` of a history that is continued are those of its two parts, one after the other. -/
theorem blocks_append (changes changes' : List Change) :
    blocks (changes ++ changes') = blocks changes ++ blocks changes' :=
  List.filterMap_append

@[simp] theorem lastBlock?_nil : lastBlock? [] node = none := rfl

/-- After `.block other now d` the last block of `other` is `(now, d)`, and that of any other node
is as before. -/
theorem lastBlock?_block : lastBlock? (changes ++ [.block other now d]) node =
    if node = other then some (now, d) else lastBlock? changes node := by
  rw [lastBlock?, blocks_append, List.reverse_append]
  show List.lookup node ((other, now, d) :: (blocks changes).reverse) = _
  by_cases h : node = other
  · simp [h]
  · rw [if_neg h, List.lookup_cons, beq_false_of_ne h, lastBlock?]

/-- A `.purge` is no block: `lastBlock?` answers as before it. -/
theorem lastBlock?_purge :
    lastBlock? (changes ++ [.purge now]) node = lastBlock? changes node := by
  rw [lastBlock?, blocks_append, List.reverse_append]
  rfl

/-- Only the blocks of a history say anything about a node: histories with equal `blocks` have the
same `BlockedBy`. -/
theorem blockedBy_congr (h : blocks changes' = blocks changes) :
    BlockedBy changes' node t ↔ BlockedBy changes node t := by
  simp only [BlockedBy, lastBlock?, h]

/-- Replaying `changes ++ [c]` applies `c` to the registry that `changes` leads to. -/
theorem replay_concat (changes : List Change) (c : Change) :
    replay (changes ++ [c]) = replay changes >>= fun s => c.apply s := by
  rw [replay, List.foldlM_append]
  refine bind_congr fun s => ?_
  rw [List.foldlM_cons]
  exact bind_pure _

/-! ## What a change does to the answers -/

/-- A block whose end `now.nanos + d.nanos` lies on the clock takes place. -/
theorem exists_block (h : now.nanos + d.nanos < Instant.limit) :
    ∃ s', s.block other now d = .ok s' :=
  ⟨_, block_eq_ok_iff.2 ⟨⟨_, h⟩, Instant.add_eq_ok_iff.2 rfl, rfl⟩⟩

/-- A blocked node is blocked up to the end `now + d` of the block and no longer, whatever was said
about it before; nothing is said about the other nodes. -/
theorem isBlocked_of_block (h : s.block other now d = .ok s') :
    s'.isBlocked node t = true ↔
      if node = other then t.nanos ≤ now.nanos + d.nanos else s.isBlocked node t = true := by
  obtain ⟨until', hadd, rfl⟩ := block_eq_ok_iff.1 h
  have hend := Instant.add_eq_ok_iff.1 hadd
  simp only [isBlocked_iff, Std.ExtTreeMap.getElem?_insert, Std.LawfulEqCmp.compare_eq_iff_eq]
  by_cases hnode : node = other
  · simp [hnode, Instant.le_iff, hend]
  · rw [if_neg hnode, if_neg (Ne.symm hnode)]

/-- A purge keeps the entries of the nodes that are blocked, and no others: it is a `List.filter` of
`blockedUntil`. -/
theorem toList_purge (s : SlowNodes) (now : Instant) :
    (s.purge now).blockedUntil.toList =
      s.blockedUntil.toList.filter fun entry => s.isBlocked entry.1 now := by
  rw [purge, Std.ExtTreeMap.toList_filter]
  refine List.filter_congr fun entry hentry => ?_
  have hget := Std.ExtTreeMap.mem_toList_iff_getElem?_eq_some.1 hentry
  rw [isBlocked, hget]

/-- A purge at `now` changes no answer about a later time `t`. -/
theorem isBlocked_purge (h : now ≤ t) : (s.purge now).isBlocked node t = s.isBlocked node t := by
  have hget : (s.purge now).blockedUntil[node]? =
      s.blockedUntil[node]?.filter fun until' => decide (now ≤ until') :=
    Std.ExtTreeMap.getElem?_filter'
  rw [Bool.eq_iff_iff, isBlocked_iff, isBlocked_iff, hget]
  simp only [Option.mem_def, Option.filter_eq_some_iff, decide_eq_true_eq]
  constructor
  · rintro ⟨until', ⟨hentry, -⟩, hle⟩
    exact ⟨until', hentry, hle⟩
  · -- an end that has not passed at `t` had not passed at `now`
    rintro ⟨until', hentry, hle⟩
    exact ⟨until', ⟨hentry, Nat.le_trans h hle⟩, hle⟩

/-! ## The answers -/

/-- The blocked nodes are listed in ascending order, so each is listed once. -/
theorem pairwise_blockedNodes (s : SlowNodes) (t : Instant) :
    (s.blockedNodes t).Pairwise (· < ·) := by
  have hsorted : s.blockedUntil.toList.Pairwise fun a b => a.1 < b.1 :=
    s.blockedUntil.ordered_keys_toList.imp compare_lt_iff_lt.1
  exact List.pairwise_map.2 (hsorted.filter _)

/-- Registries that give the same answers about the nodes at `t` list the same `blockedNodes`. -/
theorem blockedNodes_congr (h : ∀ node, s'.isBlocked node t = s.isBlocked node t) :
    s'.blockedNodes t = s.blockedNodes t := by
  refine (s'.pairwise_blockedNodes t).eq_of_mem_iff (s.pairwise_blockedNodes t) fun node => ?_
  rw [mem_blockedNodes, mem_blockedNodes, h]

/-- One more change `c` keeps the agreement of `isBlocked` with `BlockedBy`, at every time `t` that
`c` does not lie behind. -/
theorem blockedBy_concat {c : Change} (h : c.apply s = .ok s') (hpast : c.time ≤ t)
    (hs : s.isBlocked node t = true ↔ BlockedBy changes node t) :
    s'.isBlocked node t = true ↔ BlockedBy (changes ++ [c]) node t := by
  cases c with
  | block other now d =>
    rw [isBlocked_of_block h, BlockedBy, lastBlock?_block]
    by_cases hnode : node = other
    · simp [hnode]
    · rw [if_neg hnode, if_neg hnode]
      exact hs
  | purge now =>
    obtain rfl : s.purge now = s' := Except.ok.inj h
    have hle : now ≤ t := hpast
    rw [isBlocked_purge hle, BlockedBy, lastBlock?_purge]
    exact hs

/-- A history whose blocks end on the clock, `Fits changes`, leads to a registry that answers as the
history does. -/
theorem exists_replay (hfits : Fits changes) : ∃ s, replay changes = .ok s ∧
    ∀ t, (∀ c ∈ changes, c.time ≤ t) →
      ∀ node, s.isBlocked node t = true ↔ BlockedBy changes node t := by
  -- on the last change, since a change is judged by the history before it
  induction changes using List.reverseRecOn with
  | nil =>
    refine ⟨∅, rfl, fun t _ node => ?_⟩
    simp [BlockedBy]
  | append_singleton changes c ih =>
    obtain ⟨s, hs, hanswers⟩ := ih fun block hblock =>
      hfits block (blocks_append changes [c] ▸ List.mem_append_left _ hblock)
    obtain ⟨s', hs'⟩ : ∃ s', c.apply s = .ok s' := by
      cases c with
      | block other now d => exact exists_block (hfits (other, now, d) (by simp [blocks, Change.block?]))
      | purge now => exact ⟨_, rfl⟩
    refine ⟨s', ?_, fun t hpast node => ?_⟩
    · rw [replay_concat, hs]
      exact hs'
    · exact blockedBy_concat hs' (hpast c (by simp))
        (hanswers t (fun c hc => hpast c (List.mem_append_left _ hc)) node)

/-- **The registry answers what its history says.** After any blocks and purges, whose ends lie on
the clock (`Fits`), and at any time that none of them lies behind: a node is blocked exactly when
its last block has not ended (`BlockedBy`); the blocked nodes are listed in ascending order, each
once; a purge would drop exactly the entries of nodes that are not blocked; and every other history
with the same `blocks`, its purges wherever they are, gives the same answers. -/
theorem answers_eq_history (hfits : Fits changes) (hpast : ∀ c ∈ changes, c.time ≤ t) :
    ∃ s, replay changes = .ok s ∧
      (∀ node, s.isBlocked node t = true ↔ BlockedBy changes node t) ∧
      (s.blockedNodes t).Pairwise (· < ·) ∧
      (∀ node, node ∈ s.blockedNodes t ↔ BlockedBy changes node t) ∧
      (s.purge t).blockedUntil.toList =
        s.blockedUntil.toList.filter (fun entry => s.isBlocked entry.1 t) ∧
      ∀ changes', blocks changes' = blocks changes → (∀ c ∈ changes', c.time ≤ t) →
        ∃ s', replay changes' = .ok s' ∧ (∀ node, s'.isBlocked node t = s.isBlocked node t) ∧
          s'.blockedNodes t = s.blockedNodes t := by
  obtain ⟨s, hs, hanswers⟩ := exists_replay hfits
  have hnow := hanswers t hpast
  refine ⟨s, hs, hnow, s.pairwise_blockedNodes t, fun node => mem_blockedNodes.trans (hnow node),
    s.toList_purge t, fun changes' hblocks hpast' => ?_⟩
  have hfits' : Fits changes' := fun block hblock => hfits block (hblocks ▸ hblock)
  obtain ⟨s', hs', hanswers'⟩ := exists_replay hfits'
  have hsame : ∀ node, s'.isBlocked node t = s.isBlocked node t := by
    intro node
    rw [Bool.eq_iff_iff, hanswers' t hpast' node, hnow node, blockedBy_congr hblocks]
  exact ⟨s', hs', hsame, blockedNodes_congr hsame⟩

/-- One node is blocked a second time, up to a sooner end; the purge comes when that block and the
block of another node just last, and a third one has ended. -/
def sampleHistory : List Change :=
  [.block "a" .origin (.ofSeconds 60), .block "b" .origin (.ofSeconds 20),
    .block "c" .origin (.ofSeconds 19), .block "a" (.ofMillis 10000) (.ofSeconds 10),
    .purge (.ofMillis 20000)]

/-- A history with a renewed, an expired and a purged block: at 20 s the nodes `"a"` and `"b"` are
blocked and `"c"` is not, with the purges or without them. -/
theorem answers_eq_history_sample :
    Fits sampleHistory ∧ (∀ c ∈ sampleHistory, c.time ≤ .ofMillis 20000) ∧
      ∃ s s', replay sampleHistory = .ok s ∧
        replay (sampleHistory.filter (·.block?.isSome)) = .ok s' ∧
        s.blockedNodes (.ofMillis 20000) = ["a", "b"] ∧
        s'.blockedNodes (.ofMillis 20000) = ["a", "b"] ∧
        BlockedBy sampleHistory "a" (.ofMillis 20000) ∧
        ¬BlockedBy sampleHistory "c" (.ofMillis 20000) := by
  have hfits : Fits sampleHistory := by unfold Fits; decide
  have hpast : ∀ c ∈ sampleHistory, c.time ≤ .ofMillis 20000 := by decide
  have heval : (replay sampleHistory).map (·.blockedNodes (.ofMillis 20000)) =
      .ok ["a", "b"] := by
    decide +kernel
  obtain ⟨s, hs, -, -, hmem, -, hpurges⟩ := answers_eq_history hfits hpast
  obtain ⟨s', hs', -, hsame⟩ := hpurges (sampleHistory.filter (·.block?.isSome)) rfl (by decide)
  have hnodes : s.blockedNodes (.ofMillis 20000) = ["a", "b"] := by
    rw [hs] at heval
    exact Except.ok.inj heval
  refine ⟨hfits, hpast, s, s', hs, hs', hnodes, hsame.trans hnodes, ?_, ?_⟩
  · rw [← hmem, hnodes]
    decide
  · rw [← hmem, hnodes]
    decide

end AdaptiveBatch.SlowNodes
