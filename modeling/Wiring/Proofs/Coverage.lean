import Mathlib.Data.Finset.Max
import Wiring.Proofs.Circularity

/-! # Which nodes are on a listed cycle

The search lists a cycle for each edge that leads back onto the path. A cycle that leads through a
node which is finished already is closed by no such edge, so that not every node on a cycle is on a
listed one. It is exactly if it lies on some cycle of which no node was finished before the search
came to it. In particular every cycle has a node on a listed one: the first that is entered.
-/

namespace Wiring.Graph

variable {graph : Graph} {id : String} {cycle : List String}

/-- The search finishes the node with one id before it comes to the node with another. -/
def FinishedBefore (graph : Graph) (earlier later : String) : Prop :=
  ∃ first second, lastIndex? earlier graph.ids = some first ∧
    lastIndex? later graph.ids = some second ∧ Search.Precedes graph.arcs first second

private theorem Linked.exists_arc {source target : String} (linked : graph.Linked source target) :
    ∃ node, ∃ arc ∈ graph.arcs.get node, lastIndex? source graph.ids = some node ∧
      lastIndex? target graph.ids = some arc.target := by
  obtain ⟨place, edge, found, rfl, rfl⟩ := linked.exists_place
  obtain ⟨node, atSource⟩ := exists_lastIndex? linked.1
  obtain ⟨target, atTarget⟩ := exists_lastIndex? linked.2.1
  exact ⟨node, ⟨place, target⟩, mem_arcs_iff.mpr ⟨edge, found, atSource, atTarget⟩, atSource, atTarget⟩

/-- Going round a cycle from a node, with no node on the way that was finished before, some step
leads from below the node back to its line. -/
theorem IsCycle.exists_return (isCycle : graph.IsCycle cycle) (member : id ∈ cycle)
    {node : Fin graph.ids.length} (found : lastIndex? id graph.ids = some node)
    (late : ∀ other ∈ cycle, ¬ graph.FinishedBefore other id) :
    ∃ step ∈ cycleSteps cycle, ∃ source, ∃ arc ∈ graph.arcs.get source,
      lastIndex? step.1 graph.ids = some source ∧ lastIndex? step.2 graph.ids = some arc.target ∧
      node ∈ Search.line graph.arcs source ∧ arc.target ∈ Search.line graph.arcs node := by
  by_contra never
  -- then each step leads from below the node to below the node, the last one to the node itself
  have below : ∀ other ∈ cycle, ∃ source, lastIndex? other graph.ids = some source ∧
      node ∈ Search.line graph.arcs source := by
    refine forall_mem_of_passed_on ?_ ⟨id, member, node, found, Search.mem_line_self _ _⟩
    rintro step along ⟨source, atSource, onLine⟩
    obtain ⟨source', arc, leaves, atSource', atTarget⟩ := (isCycle.linked step along).exists_arc
    obtain rfl := Option.some.inj (atSource.symm.trans atSource')
    rcases Search.line_of_arc onLine leaves with down | up | precedes
    · exact ⟨arc.target, atTarget, down⟩
    · exact absurd ⟨step, along, source, arc, leaves, atSource, atTarget, onLine, up⟩ never
    · exact absurd ⟨arc.target, node, atTarget, found, precedes⟩
        (late step.2 (mem_of_mem_cycleSteps along).2)
  obtain ⟨step, along, rfl⟩ := exists_step_to member
  obtain ⟨source, arc, leaves, atSource, atTarget⟩ := (isCycle.linked step along).exists_arc
  obtain ⟨source', atSource', onLine⟩ := below step.1 (mem_of_mem_cycleSteps along).1
  obtain rfl := Option.some.inj (atSource.symm.trans atSource')
  obtain rfl := Option.some.inj (found.symm.trans atTarget)
  exact never ⟨step, along, source, arc, leaves, atSource, atTarget, onLine,
    Search.mem_line_self _ _⟩

/-- An arc to another node on the line of its source closes a listed cycle, which has the nodes
between them. -/
theorem exists_listed_of_return {source node : Fin graph.ids.length} {arc : Arc graph.ids.length}
    (leaves : arc ∈ graph.arcs.get source) (apart : arc.target ≠ source)
    (below : node ∈ Search.line graph.arcs source)
    (above : arc.target ∈ Search.line graph.arcs node) :
    ∃ cycle ∈ graph.circularity.cycles, graph.ids.get node ∈ cycle := by
  have numbered := arcs_numbered graph.ids graph.edges
  have onLine : arc.target ∈ Search.line graph.arcs source :=
    (Search.line_initial below).subset above
  have closes : arc.edge ∈ graph.circularity.circular :=
    mem_circular_iff.mpr ((Search.edge_mem_circular_iff numbered leaves).mpr onLine)
  obtain ⟨closings, circular, cycles, lines⟩ := exists_closings graph
  rw [circular] at closes
  obtain ⟨closing, member, edge⟩ := List.mem_map.mp closes
  obtain ⟨rfl, rfl⟩ := numbered.eq closing.leaves leaves edge
  refine ⟨ringIds closing, ?_, ?_⟩
  · rw [cycles]
    refine List.mem_map_of_mem (List.mem_filter.mpr ⟨member, ?_⟩)
    simpa [Search.Closing.isLoop] using apart
  · rw [ringIds, (lines closing member).2]
    exact List.mem_map_of_mem (Search.mem_ring below above)

/-- The nodes of a listed cycle are under way together. -/
theorem not_finishedBefore_of_mem (listed : cycle ∈ graph.circularity.cycles) (member : id ∈ cycle)
    {other : String} (member' : other ∈ cycle) : ¬ graph.FinishedBefore other id := by
  obtain ⟨closings, _, cycles, lines⟩ := exists_closings graph
  rw [cycles] at listed
  obtain ⟨closing, found, rfl⟩ := List.mem_map.mp listed
  have onLine : closing.ring ⊆ Search.line graph.arcs closing.source := by
    rw [(lines closing (List.mem_of_mem_filter found)).2]
    exact (List.dropWhile_sublist _).subset
  obtain ⟨node, inside, rfl⟩ := List.mem_map.mp member
  obtain ⟨node', inside', rfl⟩ := List.mem_map.mp member'
  rintro ⟨first, second, atFirst, atSecond, precedes⟩
  obtain rfl := Option.some.inj ((lastIndex?_ring closing node' inside').symm.trans atFirst)
  obtain rfl := Option.some.inj ((lastIndex?_ring closing node inside).symm.trans atSecond)
  exact Search.not_precedes_of_mem_line (onLine inside') (onLine inside) precedes

/-- A node is on a listed cycle exactly if it lies on a cycle of which no node was finished before
the search came to it. -/
theorem exists_listed_iff (graph : Graph) (id : String) :
    (∃ cycle ∈ graph.circularity.cycles, id ∈ cycle) ↔
      ∃ cycle, graph.IsCycle cycle ∧ 2 ≤ cycle.length ∧ id ∈ cycle ∧
        ∀ other ∈ cycle, ¬ graph.FinishedBefore other id := by
  constructor
  · rintro ⟨cycle, listed, member⟩
    obtain ⟨isCycle, long⟩ := isCycle_of_mem_cycles listed
    exact ⟨cycle, isCycle, long, member, fun _ => not_finishedBefore_of_mem listed member⟩
  · rintro ⟨cycle, isCycle, long, member, late⟩
    obtain ⟨node, found⟩ := exists_lastIndex? (isCycle.mem_ids member)
    obtain ⟨step, along, source, arc, leaves, atSource, atTarget, below, above⟩ :=
      isCycle.exists_return member found late
    have apart : arc.target ≠ source := by
      rintro rfl
      have same := (get_of_lastIndex? atSource).symm.trans (get_of_lastIndex? atTarget)
      exact cycleSteps_ne isCycle.nodup long step along same
    rw [← get_of_lastIndex? found]
    exact exists_listed_of_return leaves apart below above

/-- Some node of each cycle is not preceded by any other. -/
theorem IsCycle.exists_first (isCycle : graph.IsCycle cycle) :
    ∃ id ∈ cycle, ∀ other ∈ cycle, ¬ graph.FinishedBefore other id := by
  obtain ⟨id, member, least⟩ := Finset.exists_min_image cycle.toFinset
    (fun id => (lastIndex? id graph.ids).elim 0 (Search.entry graph.arcs))
    (List.toFinset_nonempty_iff cycle |>.mpr isCycle.nonempty)
  refine ⟨id, List.mem_toFinset.mp member, ?_⟩
  rintro other member' ⟨first, second, atFirst, atSecond, precedes⟩
  have order := least other (List.mem_toFinset.mpr member')
  rw [atFirst, atSecond] at order
  exact absurd precedes.entry_lt (Nat.not_lt.mpr order)

/-- Every cycle of two nodes or more has a node on a listed one, and a node on such a cycle is on a
listed one exactly if it lies on one of which no node was finished before the search came to it. -/
theorem cycles_cover (graph : Graph) :
    (∀ id, (∃ cycle ∈ graph.circularity.cycles, id ∈ cycle) ↔
      ∃ cycle, graph.IsCycle cycle ∧ 2 ≤ cycle.length ∧ id ∈ cycle ∧
        ∀ other ∈ cycle, ¬ graph.FinishedBefore other id) ∧
    ∀ cycle, graph.IsCycle cycle → 2 ≤ cycle.length →
      ∃ id ∈ cycle, ∃ listed ∈ graph.circularity.cycles, id ∈ listed := by
  refine ⟨exists_listed_iff graph, fun cycle isCycle long => ?_⟩
  obtain ⟨id, member, late⟩ := isCycle.exists_first
  exact ⟨id, member, (exists_listed_iff graph id).mpr ⟨cycle, isCycle, long, member, late⟩⟩

/-- Two ways from one node to another that leads back. The second is closed by an edge to a finished
node. -/
def detour : Graph where
  nodes := [⟨"A", .service⟩, ⟨"B", .service⟩, ⟨"C", .service⟩]
  edges := [⟨"A", "B", none, none⟩, ⟨"A", "C", none, none⟩, ⟨"B", "A", none, none⟩,
    ⟨"C", "B", none, none⟩]
  cycles := []

private theorem circularity_detour : detour.circularity = ⟨[["A", "B"]], [2]⟩ := by
  rw [circularity, Search.all_eq_moment _ 12 (by decide +kernel)]
  decide +kernel

theorem isCycle_detour : detour.IsCycle ["A", "C", "B"] where
  nonempty := List.cons_ne_nil _ _
  nodup := by decide
  linked := by
    have steps : cycleSteps ["A", "C", "B"] = [("A", "C"), ("C", "B"), ("B", "A")] := rfl
    rw [steps, List.forall_mem_cons, List.forall_mem_cons, List.forall_mem_singleton]
    refine ⟨⟨by decide, by decide, ?_⟩, ⟨by decide, by decide, ?_⟩, ⟨by decide, by decide, ?_⟩⟩
    · exact ⟨⟨"A", "C", none, none⟩, by decide, rfl, rfl⟩
    · exact ⟨⟨"C", "B", none, none⟩, by decide, rfl, rfl⟩
    · exact ⟨⟨"B", "A", none, none⟩, by decide, rfl, rfl⟩

private theorem not_listed_detour : ¬ ∃ cycle ∈ detour.circularity.cycles, "C" ∈ cycle := by
  rw [circularity_detour]
  decide

/-- Not every node on a cycle is on a listed one. -/
theorem detour_leaves_node_out :
    ¬ ∀ (graph : Graph) (id : String) (cycle : List String), graph.IsCycle cycle →
      2 ≤ cycle.length → id ∈ cycle → ∃ listed ∈ graph.circularity.cycles, id ∈ listed :=
  fun covers => not_listed_detour (covers detour "C" ["A", "C", "B"] isCycle_detour (by decide)
    (by decide))

theorem cycles_cover_detour :
    (∃ other ∈ ["A", "C", "B"], detour.FinishedBefore other "C") ∧
    (∃ cycle, detour.IsCycle cycle ∧ 2 ≤ cycle.length ∧ "A" ∈ cycle ∧
      ∀ other ∈ cycle, ¬ detour.FinishedBefore other "A") ∧
    ∃ id ∈ ["A", "C", "B"], ∃ listed ∈ detour.circularity.cycles, id ∈ listed := by
  obtain ⟨covered, met⟩ := cycles_cover detour
  refine ⟨?_, ?_, met _ isCycle_detour (by decide)⟩
  · by_contra late
    push Not at late
    exact not_listed_detour ((covered "C").mpr
      ⟨["A", "C", "B"], isCycle_detour, by decide, by decide, late⟩)
  · refine (covered "A").mp ⟨["A", "B"], ?_, by decide⟩
    rw [circularity_detour]
    exact List.mem_singleton_self _

end Wiring.Graph
