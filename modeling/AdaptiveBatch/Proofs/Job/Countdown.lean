import AdaptiveBatch.Proofs.Job.Order
import Mathlib.Data.List.Sort
import Mathlib.Logic.Function.Basic

/-! # The emission by counting

Instead of looking at all producers of a vertex again and again, one can count the edges that the
vertex still waits for. An emitted vertex takes one off the count of its consumer for each of its
edges, and a vertex is released when its count comes to nothing. Since an edge is taken off only with
the emission of its producer, no count ever drops below nothing, and the order is the same.

* **`JobGraph.countOff`**, **`JobGraph.emitCounting`**, **`JobGraph.countedEmission`** — the emission
  with counts, which has no result when a count would drop below nothing;
* **`JobGraph.openEdges`** — what the counts stand for, with `countOff_openEdges` for one vertex;
* **`JobGraph.countedEmission_eq`** — it always has a result, and the same one. -/

namespace AdaptiveBatch.JobGraph

variable {g : JobGraph} {emitted queue : List JobVertex} {v : JobVertex} {p c : VertexId}

/-- The place of a name in a list of vertices. -/
def position (vertices : List JobVertex) (id : VertexId) : Nat := (vertices.map (·.id)).idxOf id

/-- The vertices with the given names, in the order of declaration. -/
def declared (g : JobGraph) (ids : List VertexId) : List JobVertex :=
  (ids.mergeSort fun a b => decide (position g.vertices a ≤ position g.vertices b)).filterMap g.get?

/-- Takes one off the count of each name in turn, and collects the names whose counts come to
nothing. There is no result when a count would drop below nothing. -/
def countOff (counts : VertexId → Nat) : List VertexId → Option ((VertexId → Nat) × List VertexId)
  | [] => some (counts, [])
  | c :: rest =>
    match counts c with
    | 0 => none
    | n + 1 => do
      let (left, zeroed) ← countOff (Function.update counts c n) rest
      some (left, if n = 0 then c :: zeroed else zeroed)

/-- Emits vertices from the queue until it is empty, and keeps count of the edges that the others
wait for. -/
def emitCounting (g : JobGraph) :
    (steps : Nat) → (counts : VertexId → Nat) → (emitted queue : List JobVertex) →
      Option (List JobVertex)
  | 0, _, emitted, _ => some emitted
  | _ + 1, _, emitted, [] => some emitted
  | steps + 1, counts, emitted, v :: queue => do
    let (left, zeroed) ← countOff counts (g.consumersOf v.id)
    g.emitCounting steps left (emitted ++ [v]) (queue ++ g.declared zeroed)

/-- The vertices in the order of emission, found by counting. -/
def countedEmission (g : JobGraph) : Option (List JobVertex) :=
  let counts id := (g.inputsOf id).length
  g.emitCounting g.vertices.length counts [] (g.vertices.filter fun v => decide (counts v.id = 0))

/-! ## The order of declaration -/

/-- The names are declared one after the other: `position g.vertices` ascends along them. -/
theorem pairwise_position (hids : (g.vertices.map (·.id)).Nodup) :
    (g.vertices.map (·.id)).Pairwise fun a b => position g.vertices a < position g.vertices b := by
  refine List.pairwise_iff_getElem.2 fun i j hi hj hij => ?_
  rwa [position, position, hids.idxOf_getElem, hids.idxOf_getElem]

/-- Sorting `ids` by their places in `g.vertices` brings them into the order of declaration, that of
`names`. -/
theorem mergeSort_position (hids : (g.vertices.map (·.id)).Nodup) {ids names : List VertexId}
    (hperm : ids.Perm names) (hnames : names.Sublist (g.vertices.map (·.id))) :
    ids.mergeSort (fun a b => decide (position g.vertices a ≤ position g.vertices b)) = names := by
  have hsort := (List.mergeSort_perm ids
    fun a b => decide (position g.vertices a ≤ position g.vertices b)).trans hperm
  have hsorted := ((pairwise_position hids).sublist hnames).imp Nat.le_of_lt
  refine List.Perm.eq_of_pairwise ?_ ?_ hsorted hsort
  · intro a b ha _ hab hba
    exact (List.idxOf_inj (hnames.subset (hsort.mem_iff.1 ha))).1 (Nat.le_antisymm hab hba)
  · refine (List.pairwise_mergeSort ?_ ?_ ids).imp of_decide_eq_true
    · intro a b c hab hbc
      exact decide_eq_true ((of_decide_eq_true hab).trans (of_decide_eq_true hbc))
    · intro a b
      simp [Nat.le_total]

/-- Vertices of the graph are found by their names with `g.get?`. -/
theorem filterMap_get? (hids : (g.vertices.map (·.id)).Nodup) {vertices : List JobVertex}
    (h : vertices ⊆ g.vertices) : (vertices.map (·.id)).filterMap g.get? = vertices := by
  have hget : ∀ v ∈ vertices, g.get? v.id = some v := fun v hv => get?_eq_some hids (h hv)
  rw [List.filterMap_map]
  exact (List.filterMap_congr hget).trans List.filterMap_some

/-- The vertices with the names `ids` of the graph, in the order of declaration, are a `List.filter`
of `g.vertices`. -/
theorem declared_eq_filter (hids : (g.vertices.map (·.id)).Nodup) {ids : List VertexId}
    (hnodup : ids.Nodup) (hknown : ids ⊆ g.vertices.map (·.id)) :
    g.declared ids = g.vertices.filter fun v => decide (v.id ∈ ids) := by
  have hsublist : ((g.vertices.filter fun v => decide (v.id ∈ ids)).map (·.id)).Sublist
      (g.vertices.map (·.id)) := List.filter_sublist.map _
  have hperm : ids.Perm ((g.vertices.filter fun v => decide (v.id ∈ ids)).map (·.id)) := by
    refine (List.perm_ext_iff_of_nodup hnodup (hids.sublist hsublist)).2 fun id => ⟨?_, ?_⟩
    · intro hid
      obtain ⟨v, hv, rfl⟩ := List.mem_map.1 (hknown hid)
      exact List.mem_map_of_mem (List.mem_filter.2 ⟨hv, decide_eq_true hid⟩)
    · intro hid
      obtain ⟨v, hv, rfl⟩ := List.mem_map.1 hid
      exact of_decide_eq_true (List.mem_filter.1 hv).2
  rw [declared, mergeSort_position hids hperm hsublist,
    filterMap_get? hids (List.filter_subset_self _)]

/-! ## Counting off -/

/-- One off the count of the first name `c` and one name less leave the same difference. -/
theorem update_add_count {counts : VertexId → Nat} {n : Nat} (hn : counts c = n + 1)
    (rest : List VertexId) (id : VertexId) :
    Function.update counts c n id + (c :: rest).count id = counts id + rest.count id := by
  by_cases heq : id = c
  · subst heq
    rw [Function.update_self, List.count_cons_self, hn]
    omega
  · rw [Function.update_of_ne heq, List.count_cons_of_ne (Ne.symm heq)]

/-- Whether the first name `c` comes to nothing does not depend on where it is collected: at once,
when `n = 0`, or with its last occurrence. -/
theorem mem_zeroed_iff {rest zeroed : List VertexId} {n : Nat} (hle : rest.count c ≤ n)
    (hmem : c ∈ zeroed ↔ c ∈ rest ∧ n = rest.count c) :
    (c ∈ if n = 0 then c :: zeroed else zeroed) ↔ n = rest.count c := by
  split
  · exact iff_of_true List.mem_cons_self (by omega)
  · rw [hmem, ← List.count_pos_iff]
    omega

/-- Names that do not occur more often than they are counted can be taken off, and those come to
nothing, `zeroed`, that occur just as often. -/
theorem countOff_eq (counts : VertexId → Nat) (ids : List VertexId)
    (h : ∀ id, ids.count id ≤ counts id) : ∃ zeroed,
      countOff counts ids = some (fun id => counts id - ids.count id, zeroed) ∧ zeroed.Nodup ∧
      ∀ id, id ∈ zeroed ↔ id ∈ ids ∧ counts id = ids.count id := by
  induction ids generalizing counts with
  | nil => exact ⟨[], by simp [countOff]⟩
  | cons c rest ih =>
    have hself := h c
    rw [List.count_cons_self] at hself
    obtain ⟨n, hn⟩ : ∃ n, counts c = n + 1 := ⟨counts c - 1, by omega⟩
    -- the remaining names are taken off what the first one leaves
    have hupdate := update_add_count hn rest
    obtain ⟨zeroed, hoff, hnodup, hmem⟩ := ih (Function.update counts c n) fun id => by
      have hid := h id
      have hsame := hupdate id
      omega
    have hleft : (fun id => Function.update counts c n id - rest.count id) =
        fun id => counts id - (c :: rest).count id := by
      funext id
      have hsame := hupdate id
      omega
    refine ⟨if n = 0 then c :: zeroed else zeroed, ?_, ?_, ?_⟩
    · rw [countOff, hn]
      simp only [hoff, hleft]
      rfl
    · -- a name whose count has come to nothing does not occur again
      split
      · have hlast : c ∉ rest := List.count_eq_zero.1 (by omega)
        exact List.nodup_cons.2 ⟨fun hc => hlast ((hmem c).1 hc).1, hnodup⟩
      · exact hnodup
    · intro id
      by_cases heq : id = c
      · subst heq
        have hfirst := hmem id
        rw [Function.update_self] at hfirst
        rw [mem_zeroed_iff (by omega) hfirst, List.count_cons_self, hn, Nat.add_right_cancel_iff,
          and_iff_right List.mem_cons_self]
      · have hother : (id ∈ if n = 0 then c :: zeroed else zeroed) ↔ id ∈ zeroed := by
          split <;> simp [heq]
        rw [hother, hmem, Function.update_of_ne heq, List.mem_cons, or_iff_right heq,
          List.count_cons_of_ne (Ne.symm heq)]

/-! ## Open edges -/

/-- The number of edges that a vertex waits for. -/
def openEdges (g : JobGraph) (emitted : List JobVertex) (id : VertexId) : Nat :=
  (g.producersOf id).countP fun p => decide (p ∉ emitted.map (·.id))

/-- A vertex waits for no edge iff all of its producers are `emitted`. -/
theorem openEdges_eq_zero_iff :
    g.openEdges emitted c = 0 ↔ ∀ p ∈ g.producersOf c, p ∈ emitted.map (·.id) := by
  simp [openEdges, List.countP_eq_zero]

/-- The edges between two vertices `p` and `c` are the same seen from either of them. -/
theorem count_consumersOf : (g.consumersOf p).count c = (g.producersOf c).count p := by
  simp only [consumersOf, producersOf, inputsOf, outputsOf, List.count_eq_countP, List.countP_map,
    List.countP_filter, Function.comp_def]
  refine List.countP_congr fun e _ => ?_
  simp [and_comm]

/-- An emitted vertex `v` leaves all edges open but its own, those to `g.consumersOf v.id`. -/
theorem openEdges_concat (hv : v.id ∉ emitted.map (·.id)) : g.openEdges emitted c =
    g.openEdges (emitted ++ [v]) c + (g.consumersOf v.id).count c := by
  rw [count_consumersOf]
  unfold openEdges
  induction g.producersOf c with
  | nil => rfl
  | cons p rest ih =>
    rw [List.countP_cons, List.countP_cons, List.count_cons, ih]
    by_cases hp : p = v.id
    · subst hp
      simp [hv]
      omega
    · simp [hp]
      omega

/-- The counts go on to stand for the `openEdges`, and what comes to nothing is what is
`released`. -/
theorem countOff_openEdges (hids : (g.vertices.map (·.id)).Nodup)
    (hknown : ∀ e ∈ g.edges, e.target ∈ g.vertices.map (·.id))
    (hv : v.id ∉ emitted.map (·.id)) : ∃ zeroed,
      countOff (g.openEdges emitted) (g.consumersOf v.id) =
        some (g.openEdges (emitted ++ [v]), zeroed) ∧
      g.declared zeroed = g.released (emitted ++ [v]) v := by
  have hopen := fun c => openEdges_concat (g := g) (c := c) hv
  obtain ⟨zeroed, hoff, hnodup, hmem⟩ := countOff_eq (g.openEdges emitted) (g.consumersOf v.id)
    fun c => hopen c ▸ Nat.le_add_left _ _
  have hleft : (fun c => g.openEdges emitted c - (g.consumersOf v.id).count c) =
      g.openEdges (emitted ++ [v]) := by
    funext c
    rw [hopen c, Nat.add_sub_cancel]
  refine ⟨zeroed, by rw [hoff, hleft], ?_⟩
  rw [declared_eq_filter hids hnodup, released]
  · refine List.filter_congr fun w _ => ?_
    have hzero : g.openEdges emitted w.id = (g.consumersOf v.id).count w.id ↔
        g.openEdges (emitted ++ [v]) w.id = 0 := by
      have hsum := hopen w.id
      omega
    simp only [hmem, hzero, openEdges_eq_zero_iff, Bool.decide_and, List.all_eq, decide_eq_true_eq]
  · intro c hc
    obtain ⟨e, he, rfl⟩ := List.mem_map.1 ((hmem c).1 hc).1
    exact hknown e (mem_outputsOf.1 he).1

/-! ## The emission -/

/-- Counting emits the same vertices as `g.emit`, as long as the counts stand for the
`openEdges`. -/
theorem emitCounting_eq (hids : (g.vertices.map (·.id)).Nodup)
    (hknown : ∀ e ∈ g.edges, e.target ∈ g.vertices.map (·.id)) (steps : Nat)
    (h : g.Emitting emitted queue) :
    g.emitCounting steps (g.openEdges emitted) emitted queue = some (g.emit steps emitted queue) := by
  induction steps generalizing emitted queue with
  | zero => rfl
  | succ steps ih =>
    cases queue with
    | nil => rfl
    | cons v queue =>
      obtain ⟨zeroed, hoff, hreleased⟩ := countOff_openEdges hids hknown h.head_notMem
      rw [emitCounting, hoff]
      simp only [Option.bind_eq_bind, Option.bind_some, hreleased]
      exact ih (h.next hids)

/-- **Counting finds the same order.** No count drops below nothing, and the vertices are emitted in
the order of `g.emission`. -/
theorem countedEmission_eq (hids : (g.vertices.map (·.id)).Nodup)
    (hknown : ∀ e ∈ g.edges, e.target ∈ g.vertices.map (·.id)) :
    g.countedEmission = some g.emission := by
  have hcounts : (fun id => (g.inputsOf id).length) = g.openEdges [] := by
    funext id
    simp [openEdges, producersOf]
  have hsources : (g.vertices.filter fun v => decide ((g.inputsOf v.id).length = 0)) =
      g.vertices.filter fun v => g.isSource v.id := by
    refine List.filter_congr fun v _ => ?_
    rw [isSource, Bool.eq_iff_iff, decide_eq_true_iff, List.length_eq_zero_iff, List.isEmpty_iff]
  unfold countedEmission
  simp only [hsources, hcounts]
  exact emitCounting_eq hids hknown _ (emitting_sources hids)

end AdaptiveBatch.JobGraph
