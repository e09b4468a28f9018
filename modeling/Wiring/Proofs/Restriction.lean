import Wiring.Proofs.Circularity
import Wiring.Proofs.Reach

/-! # Restricting a graph with its cycles

A cycle survives a restriction exactly if one of its nodes is reached, and then all of it is: its
nodes, its steps, and every edge between the ends of a step. This holds in both directions at once
too, where the edges that are kept are not all edges between the nodes that are kept.
-/

namespace Wiring.Graph

variable {graph : Graph} {reach : Reach} {place : Nat} {edge : Edge} {cycle : List String}

section Marking

theorem getElem?_markCycles (graph : Graph) (place : Nat) :
    graph.markCycles.edges[place]? = (graph.edges[place]?).map fun edge =>
      if place ∈ graph.circularity.circular then { edge with circular := some true } else edge := by
  simp only [markCycles, withCircularity, List.getElem?_map, List.getElem?_zipIdx, Option.map_map,
    Nat.zero_add]
  rfl

/-- Marking changes nothing but the marks of circular edges. -/
theorem exists_unmarked (found : graph.markCycles.edges[place]? = some edge) :
    ∃ plain, graph.edges[place]? = some plain ∧ plain.source = edge.source ∧
      plain.target = edge.target ∧
      (edge.circular = some true ↔ place ∈ graph.circularity.circular ∨ plain.circular = some true) := by
  rw [getElem?_markCycles, Option.map_eq_some_iff] at found
  obtain ⟨plain, found, rfl⟩ := found
  refine ⟨plain, found, ?_⟩
  split
  · rename_i closed
    exact ⟨rfl, rfl, iff_of_true rfl (.inl closed)⟩
  · rename_i notClosed
    exact ⟨rfl, rfl, (or_iff_right notClosed).symm⟩

theorem exists_marked (found : graph.edges[place]? = some edge) :
    ∃ marked, graph.markCycles.edges[place]? = some marked ∧ marked.source = edge.source ∧
      marked.target = edge.target := by
  rw [getElem?_markCycles, found, Option.map_some]
  refine ⟨_, rfl, ?_⟩
  split <;> exact ⟨rfl, rfl⟩

theorem Linked.markCycles {source target : String} (linked : graph.Linked source target) :
    graph.markCycles.Linked source target := by
  obtain ⟨place, edge, found, atSource, atTarget⟩ := linked.exists_place
  obtain ⟨marked, found', source, target⟩ := exists_marked found
  exact ⟨linked.1, linked.2.1, marked, List.mem_of_getElem? found', source.trans atSource,
    target.trans atTarget⟩

theorem Closes.markCycles (closes : graph.Closes cycle place) :
    graph.markCycles.Closes cycle place := by
  obtain ⟨edge, found, atLast, atFirst⟩ := closes
  obtain ⟨marked, found', source, target⟩ := exists_marked found
  exact ⟨marked, found', source ▸ atLast, target ▸ atFirst⟩

/-- The cycles that are listed on marking are cycles of the marked graph. -/
theorem isCycle_of_mem_markCycles (listed : cycle ∈ graph.markCycles.cycles) :
    graph.markCycles.IsCycle cycle ∧ 2 ≤ cycle.length := by
  obtain ⟨isCycle, long⟩ := isCycle_of_mem_cycles listed
  exact ⟨⟨isCycle.nonempty, isCycle.nodup,
    fun step member => (isCycle.linked step member).markCycles⟩, long⟩

theorem markCycles_sound (graph : Graph) :
    ∀ cycle ∈ graph.markCycles.cycles, graph.markCycles.IsCycle cycle :=
  fun _ listed => (isCycle_of_mem_markCycles listed).1

end Marking

section Keep

theorem mem_ids_keep_iff {id : String} :
    id ∈ (graph.keep reach).ids ↔ id ∈ graph.ids ∧ id ∈ reach.reached := by
  simp only [ids, keep, List.mem_map, List.mem_filter, List.contains_iff_mem]
  constructor
  · rintro ⟨node, ⟨listed, reached⟩, rfl⟩
    exact ⟨⟨node, listed, rfl⟩, reached⟩
  · rintro ⟨⟨node, listed, rfl⟩, reached⟩
    exact ⟨node, ⟨listed, reached⟩, rfl⟩

theorem mem_edges_keep_iff :
    edge ∈ (graph.keep reach).edges ↔
      ∃ place, graph.edges[place]? = some edge ∧ place ∈ reach.followed := by
  refine (mem_pick_iff graph.edges fun place => reach.followed.contains place).trans ?_
  simp only [List.contains_iff_mem]

theorem survives_iff {ids : List String} {steps : List (String × String)} :
    survives ids steps cycle = true ↔
      cycle ≠ [] ∧ (∀ id ∈ cycle, id ∈ ids) ∧ ∀ step ∈ cycleSteps cycle, step ∈ steps := by
  simp [survives, and_assoc]

/-- A cycle that is kept has its ids among the nodes and its steps among the edges that are kept. -/
theorem of_mem_cycles_keep (listed : cycle ∈ (graph.keep reach).cycles) :
    cycle ∈ graph.cycles ∧ cycle ≠ [] ∧ (∀ id ∈ cycle, id ∈ (graph.keep reach).ids) ∧
      ∀ step ∈ cycleSteps cycle, ∃ edge ∈ (graph.keep reach).edges,
        edge.source = step.1 ∧ edge.target = step.2 := by
  obtain ⟨before, survived⟩ := List.mem_filter.mp listed
  obtain ⟨nonempty, ids, steps⟩ := survives_iff.mp survived
  refine ⟨before, nonempty, ids, fun step member => ?_⟩
  obtain ⟨edge, kept, rfl⟩ := List.mem_map.mp (steps step member)
  exact ⟨edge, kept, rfl, rfl⟩

/-- Every edge along a cycle lies on it. -/
theorem IsCycle.step_back (isCycle : graph.IsCycle cycle) {step : String × String}
    (member : step ∈ cycleSteps cycle) :
    Relation.ReflTransGen graph.Linked step.2 step.1 := by
  obtain ⟨source, target⟩ := mem_of_mem_cycleSteps member
  exact reflTransGen_of_cycleSteps isCycle.linked target source

variable (isCycle : graph.IsCycle cycle) (coherent : reach.Coherent graph)
include isCycle coherent

/-- If one id of a cycle is reached, all its ids are. -/
theorem forall_reached_of_exists (touched : ∃ id ∈ cycle, id ∈ reach.reached) :
    ∀ id ∈ cycle, id ∈ reach.reached := by
  refine forall_mem_of_passed_on ?_ touched
  intro step member reached
  obtain ⟨place, edge, found, source, target⟩ := (isCycle.linked step member).exists_place
  have back := isCycle.step_back member
  rw [← source, ← target] at back
  have followed := coherent.round found back (.inl (source ▸ reached))
  exact target ▸ (coherent.ends found followed).2

/-- If one id of a cycle is reached, every edge along it is followed. -/
theorem followed_of_exists (touched : ∃ id ∈ cycle, id ∈ reach.reached)
    (found : graph.edges[place]? = some edge)
    (member : (edge.source, edge.target) ∈ cycleSteps cycle) : place ∈ reach.followed := by
  have reached := forall_reached_of_exists isCycle coherent touched
  have back := isCycle.step_back member
  exact coherent.round found back (.inl (reached _ (mem_of_mem_cycleSteps member).1))

/-- The edge that closes a cycle is followed exactly if one of its ids is reached. -/
theorem exists_reached_iff_followed (closes : graph.Closes cycle place) :
    (∃ id ∈ cycle, id ∈ reach.reached) ↔ place ∈ reach.followed := by
  obtain ⟨edge, found, member⟩ := closes.mem_cycleSteps
  constructor
  · intro touched
    exact followed_of_exists isCycle coherent touched found member
  · intro followed
    exact ⟨edge.source, (mem_of_mem_cycleSteps member).1, (coherent.ends found followed).1⟩

/-- A cycle is kept exactly if one of its ids is reached. -/
theorem survives_keep_iff :
    survives (graph.keep reach).ids
        ((graph.keep reach).edges.map fun edge => (edge.source, edge.target)) cycle = true ↔
      ∃ id ∈ cycle, id ∈ reach.reached := by
  rw [survives_iff]
  constructor
  · rintro ⟨nonempty, kept, _⟩
    obtain ⟨id, member⟩ := List.exists_mem_of_ne_nil cycle nonempty
    exact ⟨id, member, (mem_ids_keep_iff.mp (kept id member)).2⟩
  · intro touched
    have reached := forall_reached_of_exists isCycle coherent touched
    refine ⟨isCycle.nonempty, ?_, ?_⟩
    · intro id member
      exact mem_ids_keep_iff.mpr ⟨isCycle.mem_ids member, reached id member⟩
    · intro step member
      obtain ⟨_, _, edge, listed, source, target⟩ := isCycle.linked step member
      obtain ⟨place, found⟩ := List.mem_iff_getElem?.mp listed
      have same : (edge.source, edge.target) = step := by rw [source, target]
      have followed := followed_of_exists isCycle coherent touched found (same ▸ member)
      exact List.mem_map.mpr ⟨edge, mem_edges_keep_iff.mpr ⟨place, found, followed⟩, same⟩

end Keep

/-- The cycles that a restriction keeps are those with an id that is reached. -/
theorem cycles_keep (sound : ∀ cycle ∈ graph.cycles, graph.IsCycle cycle)
    (coherent : reach.Coherent graph) :
    (graph.keep reach).cycles =
      graph.cycles.filter fun cycle => cycle.any fun id => reach.reached.contains id := by
  refine List.filter_congr fun cycle listed => ?_
  rw [Bool.eq_iff_iff]
  refine (survives_keep_iff (sound cycle listed) coherent).trans ?_
  simp

/-- The cycles that are kept go in step with the circular edges, loops apart, that are followed. -/
theorem cycles_keep_closed (coherent : reach.Coherent graph.markCycles) :
    List.Forall₂ graph.Closes (graph.markCycles.keep reach).cycles
      ((graph.circularity.circular.filter fun place => !graph.loopAt place).filter
        reach.followed.contains) := by
  -- the two lists are filtered by tests that agree on every pair
  have paired := (List.forall₂_and_left _ _).mpr ⟨markCycles_sound graph, cycles_closed graph⟩
  rw [cycles_keep (markCycles_sound graph) coherent]
  refine (List.rel_filter ?_ paired).imp fun _ _ both => both.2
  rintro cycle place ⟨isCycle, closes⟩
  simpa using exists_reached_iff_followed isCycle coherent closes.markCycles

theorem restrict_eq_keep {entries : List String} (nonempty : entries ≠ []) (direction : Direction) :
    graph.restrict entries direction = graph.keep (graph.reachAlong entries direction) := by
  rw [restrict, if_neg (by simpa using nonempty)]

/-- Cycles survive as a whole: of the cycles that were found, those are kept, in order, that the
entries reach in one id, and these are the ones that they reach in all ids. -/
theorem restrict_cycles (graph : Graph) (entries : List String) (nonempty : entries ≠ [])
    (direction : Direction) :
    let marked := graph.markCycles
    let reached := (marked.reachAlong entries direction).reached
    let part := marked.restrict entries direction
    part.cycles = (marked.cycles.filter fun cycle => cycle.any fun id => reached.contains id) ∧
    ∀ cycle ∈ marked.cycles,
      (cycle ∈ part.cycles ↔ ∃ id ∈ cycle, id ∈ reached) ∧
      ((∃ id ∈ cycle, id ∈ reached) ↔ ∀ id ∈ cycle, id ∈ reached) ∧
      ((∀ id ∈ cycle, id ∈ part.ids) → cycle ∈ part.cycles) := by
  intro marked reached part
  have coherent := reachAlong_coherent marked entries direction
  have kept : part = marked.keep (marked.reachAlong entries direction) :=
    restrict_eq_keep nonempty direction
  have cycles := cycles_keep (markCycles_sound graph) coherent
  rw [← kept] at cycles
  refine ⟨cycles, fun cycle listed => ?_⟩
  obtain ⟨isCycle, _⟩ := isCycle_of_mem_markCycles listed
  have survives : cycle ∈ part.cycles ↔ ∃ id ∈ cycle, id ∈ reached := by
    rw [cycles, List.mem_filter, and_iff_right listed, List.any_eq_true]
    simp only [List.contains_iff_mem, reached]
  obtain ⟨first, member⟩ := List.exists_mem_of_ne_nil cycle isCycle.nonempty
  refine ⟨survives, ⟨forall_reached_of_exists isCycle coherent, ?_⟩, ?_⟩
  · intro all
    exact ⟨first, member, all first member⟩
  · intro inside
    have here := inside first member
    rw [kept] at here
    exact survives.mpr ⟨first, member, (mem_ids_keep_iff.mp here).2⟩

theorem restrict_cycles_knot :
    ["B"] ≠ [] ∧ ["A", "B"] ∈ knot.markCycles.cycles ∧
      ["A", "B"] ∈ (knot.markCycles.restrict ["B"] .both).cycles := by
  have listed : ["A", "B"] ∈ knot.markCycles.cycles := by
    change ["A", "B"] ∈ knot.circularity.cycles
    rw [circularity_knot]
    exact List.mem_cons_self ..
  obtain ⟨survives, _, _⟩ := (restrict_cycles knot ["B"] (by decide) .both).2 _ listed
  have reached : "B" ∈ (knot.markCycles.reachAlong ["B"] .both).reached :=
    mem_reached_reachAlong_iff.mpr
      ⟨.forward, by decide, mem_reach_of_entry (by decide) (by decide)⟩
  exact ⟨by decide, listed, survives.mpr ⟨"B", by decide, reached⟩⟩

end Wiring.Graph
