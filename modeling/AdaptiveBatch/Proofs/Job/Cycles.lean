import AdaptiveBatch.Proofs.Job.Countdown
import Mathlib.Data.Fintype.Card
import Mathlib.Data.Set.Finite.List
import Mathlib.Logic.Relation
import Mathlib.Order.WellFounded

/-! # Which graphs have an order

The emission stops when the queue is empty, and then every vertex whose producers are all emitted is
emitted itself. What is left over therefore waits for something that is left over as well, and in a
finite graph such a chain of waiting leads back to a cycle. Conversely an emitted vertex stands
behind everything it depends on, so nothing that depends on itself is ever emitted.

* **`JobGraph.Feeds`**, **`JobGraph.OnCycle`**, **`JobGraph.BehindCycle`** — dependence along edges;
* **`JobGraph.WellDeclared`** — what is asked of the vertices and of each edge by itself;
* **`JobGraph.Advancing`** — the invariant of the emission, with `Advancing.next` and
  `advancing_emit` for one step and for all of them;
* **`JobGraph.mem_emission_iff`** — the vertices that are emitted;
* **`JobGraph.topologicalOrder_sound_and_complete`** — when there is an order, what it is like, and
  which vertices are reported otherwise. -/

namespace AdaptiveBatch.JobGraph

variable {g : JobGraph} {emitted queue order : List JobVertex} {v : JobVertex} {a b p c : VertexId}

/-! ## Dependence -/

/-- An edge leads from one vertex to the other. -/
def Feeds (g : JobGraph) (p c : VertexId) : Prop := ∃ e ∈ g.edges, e.source = p ∧ e.target = c

/-- A vertex from which a path of edges leads back to itself. -/
def OnCycle (g : JobGraph) (id : VertexId) : Prop := Relation.TransGen g.Feeds id id

/-- A vertex on a directed cycle, or one that is reached from there. -/
def BehindCycle (g : JobGraph) (id : VertexId) : Prop :=
  ∃ c, g.OnCycle c ∧ Relation.ReflTransGen g.Feeds c id

/-- The declarations of a graph: there are vertices, their names differ, and every edge leads from
one of them to another one. -/
structure WellDeclared (g : JobGraph) : Prop where
  /-- There is a vertex. -/
  nonempty : g.vertices ≠ []
  /-- No name is given twice. -/
  distinct : (g.vertices.map (·.id)).Nodup
  /-- The ends of an edge are vertices. -/
  known : ∀ e ∈ g.edges, e.source ∈ g.vertices.map (·.id) ∧ e.target ∈ g.vertices.map (·.id)
  /-- No edge leads back to where it starts. -/
  loopless : ∀ e ∈ g.edges, e.source ≠ e.target

/-- The producers of `c` are the vertices that feed it by an edge. -/
theorem mem_producersOf_iff : p ∈ g.producersOf c ↔ g.Feeds p c := by
  simp only [producersOf, List.mem_map, mem_inputsOf, Feeds]
  exact exists_congr fun e => and_assoc.trans (and_congr_right fun _ => and_comm)

/-- What is `OnCycle` is `BehindCycle`, along the path of no edges. -/
theorem OnCycle.behindCycle (h : g.OnCycle c) : g.BehindCycle c := ⟨c, h, .refl⟩

/-- Whoever depends on a vertex `p` behind a cycle is behind that cycle too. -/
theorem BehindCycle.of_feeds (h : g.BehindCycle p) (hfeeds : g.Feeds p c) : g.BehindCycle c := by
  obtain ⟨d, hd, hreach⟩ := h
  exact ⟨d, hd, hreach.tail hfeeds⟩

/-- Only vertices of the graph lie `BehindCycle`. -/
theorem WellDeclared.mem_of_behindCycle (hg : g.WellDeclared) (h : g.BehindCycle c) :
    c ∈ g.vertices.map (·.id) := by
  obtain ⟨d, hd, hreach⟩ := h
  have hpath : Relation.TransGen g.Feeds d c := Relation.TransGen.trans_left hd hreach
  obtain ⟨_, -, e, he, -, rfl⟩ := Relation.TransGen.tail'_iff.1 hpath
  exact (hg.known e he).2

/-! ## The emission -/

/-- The emitted and the queued vertices are different vertices of the graph whose producers are
emitted. An emitted vertex stands behind its producers, and a vertex that waits for nothing is
emitted or queued. -/
structure Advancing (g : JobGraph) (emitted queue : List JobVertex) : Prop
    extends g.Emitting emitted queue where
  /-- They are vertices of the graph. -/
  subset : emitted ++ queue ⊆ g.vertices
  /-- The producers of an emitted vertex stand before it. -/
  earlier : ∀ v ∈ emitted, ∀ p ∈ g.producersOf v.id, position emitted p < position emitted v.id
  /-- A vertex that waits for nothing is emitted or queued. -/
  complete : ∀ v ∈ g.vertices, (∀ p ∈ g.producersOf v.id, p ∈ emitted.map (·.id)) →
    v ∈ emitted ++ queue

/-- What is appended as `rest` does not move the names that are already listed. -/
theorem position_append_of_mem {rest : List JobVertex} (h : p ∈ emitted.map (·.id)) :
    position (emitted ++ rest) p = position emitted p := by
  rw [position, List.map_append, List.idxOf_append_of_mem h, position]

/-- The place of an emitted name lies within the list of the emitted vertices. -/
theorem position_lt_length (h : p ∈ emitted.map (·.id)) : position emitted p < emitted.length := by
  have hlt := List.idxOf_lt_length_iff.2 h
  rwa [List.length_map] at hlt

/-- A new vertex `v` takes the place behind all others, `emitted.length`. -/
theorem position_concat_self (h : v.id ∉ emitted.map (·.id)) :
    position (emitted ++ [v]) v.id = emitted.length := by
  rw [position, List.map_append, List.idxOf_append_of_notMem h]
  simp

/-- The emission of `v` releases the vertices that it feeds and all of whose producers are
emitted. -/
theorem mem_released_iff {w : JobVertex} : w ∈ g.released emitted v ↔
    w ∈ g.vertices ∧ g.Feeds v.id w.id ∧ ∀ p ∈ g.producersOf w.id, p ∈ emitted.map (·.id) := by
  simp only [released, List.mem_filter, Bool.and_eq_true, decide_eq_true_eq, List.all_eq_true,
    mem_consumersOf_iff, mem_producersOf_iff]

/-- Emitting the head `v` of the queue leaves an emission that goes on in the same way, with what
`v` has released at the end of the queue. -/
theorem Advancing.next (hids : (g.vertices.map (·.id)).Nodup)
    (h : g.Advancing emitted (v :: queue)) :
    g.Advancing (emitted ++ [v]) (queue ++ g.released (emitted ++ [v]) v) where
  toEmitting := h.toEmitting.next hids
  subset := by
    have hold : emitted ++ [v] ++ queue ⊆ g.vertices := by simpa using h.subset
    rw [← List.append_assoc]
    exact List.append_subset.2 ⟨hold, List.filter_subset_self _⟩
  earlier := by
    intro w hw p hp
    rcases List.mem_append.1 hw with hw | hw
    · have hproducer := h.producers w (List.mem_append_left _ hw) p hp
      rw [position_append_of_mem hproducer,
        position_append_of_mem (List.mem_map.2 ⟨w, hw, rfl⟩)]
      exact h.earlier w hw p hp
    · obtain rfl := List.mem_singleton.1 hw
      have hproducer := h.producers w (by simp) p hp
      rw [position_append_of_mem hproducer, position_concat_self h.head_notMem]
      exact position_lt_length hproducer
  complete := by
    intro w hw hall
    by_cases hearly : ∀ p ∈ g.producersOf w.id, p ∈ emitted.map (·.id)
    · have hold := h.complete w hw hearly
      simp only [List.mem_append, List.mem_cons] at hold ⊢
      tauto
    · -- the head of the queue was the last producer that it waited for
      obtain ⟨p, hp, hlate⟩ : ∃ p ∈ g.producersOf w.id, p ∉ emitted.map (·.id) := by
        simpa using hearly
      obtain rfl : p = v.id := by
        have hmem := hall p hp
        rw [List.map_append, List.mem_append] at hmem
        exact List.mem_singleton.1 (hmem.resolve_left hlate)
      have hreleased := mem_released_iff.2 ⟨hw, mem_producersOf_iff.1 hp, hall⟩
      exact List.mem_append_right _ (List.mem_append_right _ hreleased)

/-- The emission starts with the sources, which wait for nothing, and with nothing emitted:
`g.Advancing []`. -/
theorem advancing_sources (hids : (g.vertices.map (·.id)).Nodup) :
    g.Advancing [] (g.vertices.filter fun v => g.isSource v.id) where
  toEmitting := emitting_sources hids
  subset := List.filter_subset_self _
  earlier := fun _ hv => absurd hv List.not_mem_nil
  complete := by
    intro v hv hall
    refine List.mem_filter.2 ⟨hv, ?_⟩
    have hnone : g.producersOf v.id = [] := List.eq_nil_iff_forall_not_mem.2 fun p hp =>
      absurd (hall p hp) List.not_mem_nil
    rw [isSource, List.map_eq_nil_iff.1 hnone]
    rfl

/-- Never are more vertices emitted and queued than `g.vertices` has. -/
theorem Advancing.length_le (h : g.Advancing emitted queue) :
    emitted.length + queue.length ≤ g.vertices.length := by
  rw [← List.length_append]
  exact (List.subperm_of_subset h.nodup.of_map h.subset).length_le

/-- The emission goes on until the queue is empty, if there are `steps` enough for all vertices. -/
theorem advancing_emit (hids : (g.vertices.map (·.id)).Nodup) (steps : Nat)
    (hsteps : g.vertices.length ≤ emitted.length + steps) (h : g.Advancing emitted queue) :
    g.Advancing (g.emit steps emitted queue) [] := by
  induction steps generalizing emitted queue with
  | zero =>
    have hlength := h.length_le
    obtain rfl : queue = [] := List.length_eq_zero_iff.1 (by omega)
    exact h
  | succ steps ih =>
    cases queue with
    | nil => exact h
    | cons v queue =>
      refine ih ?_ (h.next hids)
      rw [List.length_append, List.length_singleton]
      omega

/-- At the end of the emission the queue is empty: all that waits for nothing is emitted. -/
theorem advancing_emission (hids : (g.vertices.map (·.id)).Nodup) :
    g.Advancing g.emission [] :=
  advancing_emit hids _ (by simp) (advancing_sources hids)

/-! ## Cycles -/

/-- What an emitted vertex depends on, along any path of `g.Feeds`, was emitted before it. -/
theorem Advancing.position_lt (h : g.Advancing emitted queue) (hpath : Relation.TransGen g.Feeds a b)
    (hb : b ∈ emitted.map (·.id)) : a ∈ emitted.map (·.id) ∧ position emitted a < position emitted b := by
  have hstep : ∀ {p c}, g.Feeds p c → c ∈ emitted.map (·.id) →
      p ∈ emitted.map (·.id) ∧ position emitted p < position emitted c := by
    -- one edge is what the invariant says
    intro p c hfeeds hc
    obtain ⟨v, hv, rfl⟩ := List.mem_map.1 hc
    have hp := mem_producersOf_iff.2 hfeeds
    exact ⟨h.producers v (List.mem_append_left _ hv) p hp, h.earlier v hv p hp⟩
  induction hpath with
  | single hfeeds => exact hstep hfeeds hb
  | tail _ hfeeds ih =>
    obtain ⟨hmid, hlt⟩ := hstep hfeeds hb
    obtain ⟨ha, hlt'⟩ := ih hmid
    exact ⟨ha, hlt'.trans hlt⟩

/-- Nothing that lies `BehindCycle` is emitted. -/
theorem Advancing.not_behindCycle (h : g.Advancing emitted queue) (hc : c ∈ emitted.map (·.id)) :
    ¬g.BehindCycle c := by
  rintro ⟨d, hcycle, hreach⟩
  have hd := (h.position_lt (Relation.TransGen.trans_left hcycle hreach) hc).1
  exact Nat.lt_irrefl _ (h.position_lt hcycle hd).2

/-- Away from the cycles, dependence `g.Feeds` among the vertices is well-founded. -/
theorem wellFounded_feeds (g : JobGraph) : WellFounded
    fun p c : {id // id ∈ g.vertices.map (·.id) ∧ ¬g.BehindCycle id} => g.Feeds p c := by
  have : Finite {id // id ∈ g.vertices.map (·.id) ∧ ¬g.BehindCycle id} :=
    ((List.finite_toSet (g.vertices.map (·.id))).subset fun _ h => h.1).to_subtype
  -- A path that leads back to its start is a cycle, so paths are a strict order on a finite type.
  let depends (p c : {id // id ∈ g.vertices.map (·.id) ∧ ¬g.BehindCycle id}) : Prop :=
    Relation.TransGen g.Feeds p c
  have : IsTrans _ depends := ⟨fun _ _ _ => Relation.TransGen.trans⟩
  have : Std.Irrefl depends := ⟨fun c h => c.2.2 (OnCycle.behindCycle h)⟩
  exact Subrelation.wf (fun h => Relation.TransGen.single h)
    (Finite.wellFounded_of_trans_of_irrefl depends)

/-- Everything that does not lie `BehindCycle` is emitted, by induction on what it depends on. -/
theorem WellDeclared.mem_emission_of_not_behindCycle (hg : g.WellDeclared)
    (hc : c ∈ g.vertices.map (·.id)) (hfree : ¬g.BehindCycle c) : c ∈ g.emission.map (·.id) := by
  have hemitted : ∀ c : {id // id ∈ g.vertices.map (·.id) ∧ ¬g.BehindCycle id},
      c.1 ∈ g.emission.map (·.id) := by
    intro c
    -- the producers are not behind a cycle either, so they are emitted, and then nothing is waited for
    induction c using (wellFounded_feeds g).induction with
    | _ c ih =>
      obtain ⟨v, hv, hid⟩ := List.mem_map.1 c.2.1
      have hall : ∀ p ∈ g.producersOf v.id, p ∈ g.emission.map (·.id) := by
        intro p hp
        have hfeeds : g.Feeds p c := hid ▸ mem_producersOf_iff.1 hp
        have hp : p ∈ g.vertices.map (·.id) := by
          obtain ⟨e, he, rfl, -⟩ := hfeeds
          exact (hg.known e he).1
        exact ih ⟨p, hp, fun h => c.2.2 (h.of_feeds hfeeds)⟩ hfeeds
      have hmem := (advancing_emission hg.distinct).complete v hv hall
      rw [List.append_nil] at hmem
      exact List.mem_map.2 ⟨v, hmem, hid⟩
  exact hemitted ⟨c, hc, hfree⟩

/-- The vertices of `g.emission` are those that do not lie `BehindCycle`. -/
theorem WellDeclared.mem_emission_iff (hg : g.WellDeclared) (hc : c ∈ g.vertices.map (·.id)) :
    c ∈ g.emission.map (·.id) ↔ ¬g.BehindCycle c :=
  ⟨(advancing_emission hg.distinct).not_behindCycle, hg.mem_emission_of_not_behindCycle hc⟩

/-- The vertices that `g.emission` leaves over are those `BehindCycle`. -/
theorem WellDeclared.mem_leftover_iff (hg : g.WellDeclared) :
    c ∈ (g.vertices.filter fun v => decide (v.id ∉ g.emission.map (·.id))).map (·.id) ↔
      g.BehindCycle c := by
  constructor
  · intro h
    obtain ⟨v, hv, rfl⟩ := List.mem_map.1 h
    obtain ⟨hvertex, hleft⟩ := List.mem_filter.1 hv
    by_contra hfree
    exact of_decide_eq_true hleft ((hg.mem_emission_iff (List.mem_map_of_mem hvertex)).2 hfree)
  · intro h
    obtain ⟨v, hv, rfl⟩ := List.mem_map.1 (hg.mem_of_behindCycle h)
    have hleft : v.id ∉ g.emission.map (·.id) := fun hmem =>
      (hg.mem_emission_iff (List.mem_map_of_mem hv)).1 hmem h
    exact List.mem_map_of_mem (List.mem_filter.2 ⟨hv, decide_eq_true hleft⟩)

/-- All vertices are emitted exactly when no vertex is `OnCycle`. -/
theorem WellDeclared.length_emission_eq_iff (hg : g.WellDeclared) :
    g.emission.length = g.vertices.length ↔ ∀ id, ¬g.OnCycle id := by
  have hemission := advancing_emission hg.distinct
  have hsubperm : g.emission.Subperm g.vertices := by
    have hsubset := hemission.subset
    have hnodup := hemission.nodup.of_map
    rw [List.append_nil] at hsubset hnodup
    exact List.subperm_of_subset hnodup hsubset
  constructor
  · intro hlength id hcycle
    have hid := hg.mem_of_behindCycle hcycle.behindCycle
    have hperm := hsubperm.perm_of_length_le hlength.ge
    exact (hg.mem_emission_iff hid).1 ((hperm.map _).mem_iff.2 hid) hcycle.behindCycle
  · intro hfree
    have hall : g.vertices.map (·.id) ⊆ g.emission.map (·.id) := fun id hid =>
      (hg.mem_emission_iff hid).2 fun ⟨d, hd, _⟩ => hfree d hd
    have hle := (List.subperm_of_subset hg.distinct hall).length_le
    rw [List.length_map, List.length_map] at hle
    exact Nat.le_antisymm hsubperm.length_le hle

/-! ## The order -/

/-- An edge is sound iff both of its ends are vertices of the graph and they differ. -/
theorem edgeError?_eq_none_iff {e : JobEdge} : g.edgeError? e = none ↔
    (e.source ∈ g.vertices.map (·.id) ∧ e.target ∈ g.vertices.map (·.id)) ∧ e.source ≠ e.target := by
  simp only [edgeError?]
  split
  · simp_all
  · split
    · simp_all
    · split <;> simp_all

/-- A defect of an edge is not reported as a `.cycle`. -/
theorem edgeError?_ne_cycle {e : JobEdge} {ids : List VertexId} :
    g.edgeError? e ≠ some (.cycle ids) := by
  simp only [edgeError?]
  split
  · simp
  · split
    · simp
    · split <;> simp

/-- What is reported of a graph with sound declarations: `g.emission` if it is complete, and else
the `.cycle` of what is left over. -/
theorem WellDeclared.topologicalOrder_eq (hg : g.WellDeclared) : g.topologicalOrder =
    if g.emission.length = g.vertices.length then .ok g.emission
    else .error (.cycle
      ((g.vertices.filter fun v => decide (v.id ∉ g.emission.map (·.id))).map (·.id))) := by
  have hrepeated : firstRepeated? [] (g.vertices.map (·.id)) = none :=
    firstRepeated?_eq_none_iff.2 ⟨hg.distinct, fun _ _ => List.not_mem_nil⟩
  have hedges : g.edges.findSome? g.edgeError? = none :=
    List.findSome?_eq_none_iff.2 fun e he =>
      edgeError?_eq_none_iff.2 ⟨hg.known e he, hg.loopless e he⟩
  rw [topologicalOrder, if_neg hg.nonempty]
  simp only [hrepeated, hedges]

/-- Nothing is emitted before the declarations have been found sound: an order, or a `.cycle`, tells
that the graph is `WellDeclared`. -/
theorem wellDeclared_of_emitted (h : (∃ order, g.topologicalOrder = .ok order) ∨
    ∃ ids, g.topologicalOrder = .error (.cycle ids)) : g.WellDeclared := by
  unfold topologicalOrder at h
  split at h
  · simp at h
  · next hne =>
    split at h
    · simp at h
    · next hrepeated =>
      split at h
      · next error herror =>
        obtain ⟨e, -, he⟩ := List.exists_of_findSome?_eq_some herror
        obtain ⟨order, horder⟩ | ⟨ids, hids⟩ := h
        · cases horder
        · cases hids
          exact absurd he edgeError?_ne_cycle
      · next hedges =>
        have hsound := fun e he => edgeError?_eq_none_iff.1 (List.findSome?_eq_none_iff.1 hedges e he)
        exact ⟨hne, (firstRepeated?_eq_none_iff.1 hrepeated).1, fun e he => (hsound e he).1,
          fun e he => (hsound e he).2⟩

/-- **The order is sound and complete.** A graph has an order exactly when it is `WellDeclared` and
has no directed cycle (`OnCycle`). The order consists of the vertices of the graph, and each edge
leads from an earlier to a later one. What is reported of a graph with a cycle are, as they are
declared, the vertices on its cycles and those that are reached from there (`BehindCycle`). No count
of open edges drops below nothing on the way (`countedEmission`). -/
theorem topologicalOrder_sound_and_complete (g : JobGraph) :
    ((∃ order, g.topologicalOrder = .ok order) ↔ g.WellDeclared ∧ ∀ id, ¬g.OnCycle id) ∧
    (∀ order, g.topologicalOrder = .ok order → order.Perm g.vertices ∧
      ∀ e ∈ g.edges, position order e.source < position order e.target) ∧
    (∀ ids, g.topologicalOrder = .error (.cycle ids) →
      ids.Sublist (g.vertices.map (·.id)) ∧ ∀ id, id ∈ ids ↔ g.BehindCycle id) ∧
    (g.WellDeclared → g.countedEmission = some g.emission) := by
  refine ⟨⟨?_, ?_⟩, ?_, ?_, ?_⟩
  · rintro ⟨order, h⟩
    have hg := wellDeclared_of_emitted (.inl ⟨order, h⟩)
    exact ⟨hg, hg.length_emission_eq_iff.1 (topologicalOrder_eq_ok h).2.2.2⟩
  · rintro ⟨hg, hfree⟩
    exact ⟨_, hg.topologicalOrder_eq.trans (if_pos (hg.length_emission_eq_iff.2 hfree))⟩
  · intro order h
    have hperm := perm_topologicalOrder h
    have hg := wellDeclared_of_emitted (.inl ⟨order, h⟩)
    refine ⟨hperm, fun e he => ?_⟩
    obtain ⟨-, -, rfl, -⟩ := topologicalOrder_eq_ok h
    have htarget : e.target ∈ g.emission.map (·.id) :=
      (hperm.map _).mem_iff.2 (hg.known e he).2
    exact ((advancing_emission hg.distinct).position_lt (.single ⟨e, he, rfl, rfl⟩) htarget).2
  · intro ids h
    have hg := wellDeclared_of_emitted (.inr ⟨ids, h⟩)
    rw [hg.topologicalOrder_eq] at h
    split at h
    · cases h
    · cases h
      exact ⟨List.filter_sublist.map _, fun id => hg.mem_leftover_iff⟩
  · intro hg
    exact countedEmission_eq hg.distinct fun e he => (hg.known e he).2

/-- Two ways from `a` to `d`, one of them with a repeated edge. -/
def sampleDiamond : JobGraph where
  name := "diamond"
  vertices := [{ id := "d" }, { id := "b" }, { id := "c" }, { id := "a" }]
  edges := [⟨"a", "b", .blocking⟩, ⟨"a", "c", .hybrid⟩, ⟨"b", "d", .blocking⟩, ⟨"b", "d", .pipelined⟩,
    ⟨"c", "d", .pipelined⟩]

/-- A cycle of `b` and `c` with `a` before and `d` behind it. -/
def sampleKnot : JobGraph where
  name := "knot"
  vertices := [{ id := "d" }, { id := "a" }, { id := "b" }, { id := "c" }]
  edges := [⟨"a", "b", .blocking⟩, ⟨"b", "c", .blocking⟩, ⟨"c", "b", .blocking⟩, ⟨"c", "d", .hybrid⟩]

/-- The diamond of `sampleDiamond` has an order, repeated edge or not; of `sampleKnot` the cycle and
what is behind it are reported, but not `"a"` before it. -/
theorem topologicalOrder_sound_and_complete_sample :
    (∃ order, sampleDiamond.topologicalOrder = .ok order ∧ order.map (·.id) = ["a", "b", "c", "d"] ∧
      (∀ id, ¬sampleDiamond.OnCycle id) ∧ order.Perm sampleDiamond.vertices ∧
      ∀ e ∈ sampleDiamond.edges, position order e.source < position order e.target) ∧
    sampleKnot.topologicalOrder = .error (.cycle ["d", "b", "c"]) ∧
      (∀ id, id ∈ ["d", "b", "c"] ↔ sampleKnot.BehindCycle id) ∧
      sampleKnot.countedEmission = some sampleKnot.emission := by
  have hknot : sampleKnot.topologicalOrder = .error (.cycle ["d", "b", "c"]) := by decide +kernel
  obtain ⟨order, horder, hnames⟩ : ∃ order, sampleDiamond.topologicalOrder = .ok order ∧
      order.map (·.id) = ["a", "b", "c", "d"] :=
    ⟨[{ id := "a" }, { id := "b" }, { id := "c" }, { id := "d" }], by decide +kernel, rfl⟩
  obtain ⟨hexists, hsound, -⟩ := topologicalOrder_sound_and_complete sampleDiamond
  obtain ⟨-, -, hleft, hcounted⟩ := topologicalOrder_sound_and_complete sampleKnot
  exact ⟨⟨order, horder, hnames, (hexists.1 ⟨order, horder⟩).2, hsound order horder⟩, hknot,
    (hleft _ hknot).2, hcounted (wellDeclared_of_emitted (.inr ⟨_, hknot⟩))⟩

end AdaptiveBatch.JobGraph
