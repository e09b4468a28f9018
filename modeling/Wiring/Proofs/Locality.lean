import Wiring.Proofs.Recursion
import Wiring.Proofs.Restriction
import Wiring.Proofs.Search.Renumbering

/-! # What circularity depends on

Whether an edge is circular depends on the ids of the nodes and on the targets that each id reaches
by its own edges, in their order. How edges of different sources are mixed is of no influence, nor
are edges to or from unknown ids, kinds, flags, marks, or cycles listed before. So listing cycles
and marking edges a second time changes nothing.
-/

namespace Wiring.Graph

variable {graph other : Graph} {id : String} {k : Nat} {item item' : Edge × Nat}

/-- The edges from an id to known nodes in their order, each with its place. -/
def resolved (graph : Graph) (id : String) : List (Edge × Nat) :=
  graph.edges.zipIdx.filter fun item => item.1.source = id ∧ item.1.target ∈ graph.ids

section Resolved

variable (graph) {node : Fin graph.ids.length}

/-- The node that an id stands for has the arcs of the edges from the id to known nodes. -/
theorem arcs_eq_resolved (owned : lastIndex? id graph.ids = some node) :
    graph.arcs.get node = (graph.resolved id).filterMap fun item =>
      (lastIndex? item.1.target graph.ids).map (Arc.mk item.2) := by
  rw [arcs_eq_outgoing, outgoing, resolved, List.filterMap_filter]
  refine List.filterMap_congr ?_
  rintro ⟨edge, place⟩ _
  have source := lastIndex?_eq_iff owned edge.source
  by_cases here : edge.source = id
  · cases there : lastIndex? edge.target graph.ids with
    | none => simp [there]
    | some target =>
      have known : edge.target ∈ graph.ids := get_of_lastIndex? there ▸ List.get_mem ..
      simp [owned, here, there, known]
  · simp [source, here]

theorem map_target_arcs (owned : lastIndex? id graph.ids = some node) :
    (graph.arcs.get node).map (·.target) =
      ((graph.resolved id).map (·.1.target)).filterMap (lastIndex? · graph.ids) := by
  rw [arcs_eq_resolved graph owned, List.map_filterMap, List.filterMap_map]
  refine List.filterMap_congr fun item _ => ?_
  rw [Option.map_map]
  exact Option.map_id'

/-- The arc that stands for an edge from an id to a known node has the same place among its own. -/
theorem exists_arc_of_resolved (owned : lastIndex? id graph.ids = some node)
    (listed : (graph.resolved id)[k]? = some item) :
    ∃ arc, (graph.arcs.get node)[k]? = some arc ∧ arc.edge = item.2 := by
  have edges : (graph.arcs.get node).map (·.edge) = (graph.resolved id).map (·.2) := by
    rw [arcs_eq_resolved graph owned, List.map_filterMap, ← List.filterMap_eq_map]
    refine List.filterMap_congr fun item member => ?_
    have known : item.1.target ∈ graph.ids :=
      (of_decide_eq_true (List.mem_filter.mp member).2).2
    obtain ⟨target, found⟩ := exists_lastIndex? known
    rw [found]
    rfl
  have same := congrArg (·[k]?) edges
  simp only [List.getElem?_map, listed, Option.map_some] at same
  exact Option.map_eq_some_iff.mp same

/-- A node whose id stands for another has no arcs. -/
theorem arcs_eq_nil (repeated : lastIndex? (graph.ids.get node) graph.ids ≠ some node) :
    graph.arcs.get node = [] :=
  List.eq_nil_iff_forall_not_mem.mpr fun _ leaves => repeated (lastIndex?_source leaves)

end Resolved

/-- Graphs with the same ids, and with the same targets of each id in the same order. -/
structure Agrees (other graph : Graph) : Prop where
  ids : other.ids = graph.ids
  targets : ∀ id ∈ graph.ids,
    (other.resolved id).map (·.1.target) = (graph.resolved id).map (·.1.target)

/-- Other edges to the same targets give arcs to the same nodes. -/
theorem sameTargets_of_agrees {edges : List Edge} (agrees : Agrees { graph with edges } graph) :
    Search.SameTargets graph.arcs (arcs { graph with edges }) := by
  intro node
  by_cases owned : lastIndex? (graph.ids.get node) graph.ids = some node
  · rw [map_target_arcs graph owned]
    refine Eq.trans ?_ (map_target_arcs { graph with edges } owned).symm
    rw [agrees.targets _ (List.get_mem ..)]
    rfl
  · rw [arcs_eq_nil graph owned]
    exact congrArg (List.map _) (arcs_eq_nil { graph with edges } owned).symm

/-- Of a graph only its ids and edges matter. -/
theorem circularity_congr (same : other.ids = graph.ids) :
    other.circularity = { graph with edges := other.edges }.circularity := by
  simp only [circularity]
  rw [same]
  rfl

private theorem resolved_congr (same : other.ids = graph.ids) :
    other.resolved id = { graph with edges := other.edges }.resolved id := by
  rw [resolved, same]
  rfl

namespace Agrees

theorem symm (agrees : Agrees other graph) : Agrees graph other where
  ids := agrees.ids.symm
  targets id known := (agrees.targets id (agrees.ids ▸ known)).symm

private theorem exchange (agrees : Agrees other graph) :
    Agrees { graph with edges := other.edges } graph where
  ids := rfl
  targets id known := by
    rw [← resolved_congr agrees.ids]
    exact agrees.targets id known

theorem cycles_eq (agrees : Agrees other graph) :
    other.circularity.cycles = graph.circularity.cycles := by
  rw [circularity_congr agrees.ids]
  have same := (sameTargets_of_agrees agrees.exchange).cycles_eq (arcs_numbered ..)
  exact congrArg (fun cycles => cycles.toList.map fun cycle => cycle.map graph.ids.get) same

theorem circular (agrees : Agrees other graph) (known : id ∈ graph.ids)
    (here : (graph.resolved id)[k]? = some item) (there : (other.resolved id)[k]? = some item')
    (circular : item.2 ∈ graph.circularity.circular) : item'.2 ∈ other.circularity.circular := by
  rw [resolved_congr agrees.ids] at there
  rw [circularity_congr agrees.ids]
  obtain ⟨node, owned⟩ := exists_lastIndex? known
  obtain ⟨arc, here, edge⟩ := exists_arc_of_resolved graph owned here
  obtain ⟨arc', there, edge'⟩ :=
    exists_arc_of_resolved { graph with edges := other.edges } owned there
  rw [← edge, mem_circular_iff] at circular
  rw [← edge', mem_circular_iff]
  exact (sameTargets_of_agrees agrees.exchange).circular (arcs_numbered ..) here there circular

end Agrees

section Marking

/-- Links depend on the ends of edges alone. -/
theorem links_congr {ids : List String} {edges edges' : List Edge}
    (same : (edges.map fun edge => (edge.source, edge.target)) =
      edges'.map fun edge => (edge.source, edge.target)) :
    links ids edges = links ids edges' := by
  have byEnds (edges : List Edge) : links ids edges =
      (edges.map fun edge => (edge.source, edge.target)).zipIdx.filterMap fun item => do
        let source ← lastIndex? item.1.1 ids
        let target ← lastIndex? item.1.2 ids
        return (source, ⟨item.2, target⟩) := by
    simp only [links, List.zipIdx_map, List.filterMap_map]
    rfl
  rw [byEnds, byEnds, same]

theorem circularity_markCycles (graph : Graph) :
    graph.markCycles.circularity = graph.circularity := by
  have ends : (graph.markCycles.edges.map fun edge => (edge.source, edge.target)) =
      graph.edges.map fun edge => (edge.source, edge.target) := by
    refine List.ext_getElem? fun place => ?_
    rw [List.getElem?_map, List.getElem?_map, getElem?_markCycles, Option.map_map]
    refine congrArg (Option.map · _) (funext fun edge => ?_)
    rw [Function.comp_apply]
    split <;> rfl
  simp only [circularity, links_congr ends]
  rfl

/-- Marking a second time changes nothing. -/
theorem markCycles_markCycles (graph : Graph) : graph.markCycles.markCycles = graph.markCycles := by
  have edges : graph.markCycles.markCycles.edges = graph.markCycles.edges := by
    refine List.ext_getElem? fun place => ?_
    simp only [getElem?_markCycles, circularity_markCycles, Option.map_map]
    refine congrArg (Option.map · _) (funext fun edge => ?_)
    rw [Function.comp_apply]
    split <;> rfl
  have cycles : graph.markCycles.markCycles.cycles = graph.markCycles.cycles :=
    congrArg Circularity.cycles (circularity_markCycles graph)
  calc
    graph.markCycles.markCycles
      = ⟨graph.nodes, graph.markCycles.markCycles.edges, graph.markCycles.markCycles.cycles⟩ := rfl
    _ = graph.markCycles := by rw [edges, cycles]; rfl

end Marking

/-- Circularity depends on the ids and on the order of the edges between known nodes that leave each
of them. Graphs that agree in these list the same cycles, and their edges with the same place among
those of an id are circular together. So marking twice is marking once. Nodes stay, each edge keeps
its place, its ends and its flags, and exactly the circular edges are marked. -/
theorem markCycles_local (graph : Graph) :
    (∀ other, Agrees other graph → other.circularity.cycles = graph.circularity.cycles ∧
      ∀ id ∈ graph.ids, ∀ (k : Nat) (edge edge' : Edge) (place place' : Nat),
        (graph.resolved id)[k]? = some (edge, place) →
        (other.resolved id)[k]? = some (edge', place') →
        (place' ∈ other.circularity.circular ↔ place ∈ graph.circularity.circular)) ∧
    graph.markCycles.markCycles = graph.markCycles ∧
    graph.markCycles.nodes = graph.nodes ∧
    graph.markCycles.cycles = graph.circularity.cycles ∧
    ∀ place, graph.markCycles.edges[place]? = (graph.edges[place]?).map fun edge =>
      if place ∈ graph.circularity.circular then { edge with circular := some true } else edge := by
  refine ⟨fun other agrees => ⟨agrees.cycles_eq, ?_⟩, markCycles_markCycles graph, rfl, rfl,
    getElem?_markCycles graph⟩
  intro id known k edge edge' place place' here there
  constructor
  · exact agrees.symm.circular (agrees.ids ▸ known) there here
  · exact agrees.circular known here there

/-- The knot with its edges in another order, with edges to and from unknown ids elsewhere, and with
other kinds and marks. -/
def rewoven : Graph where
  nodes := [⟨"A", .component⟩, ⟨"B", .unknown⟩, ⟨"B", .directive⟩]
  edges := [⟨"B", "A", none, some true⟩, ⟨"X", "A", none, none⟩, ⟨"B", "B", none, none⟩,
    ⟨"A", "Y", none, none⟩, ⟨"A", "B", none, some true⟩, ⟨"B", "A", none, none⟩]
  cycles := [["Y", "A"]]

private theorem rewoven_agrees : Agrees rewoven knot where
  ids := rfl
  targets := by decide

theorem markCycles_local_rewoven :
    Agrees rewoven knot ∧ rewoven.circularity.cycles = knot.circularity.cycles ∧
    (5 ∈ rewoven.circularity.circular ↔ 4 ∈ knot.circularity.circular) ∧
    (4 ∈ rewoven.circularity.circular ↔ 0 ∈ knot.circularity.circular) ∧
    rewoven.markCycles.markCycles = rewoven.markCycles := by
  obtain ⟨cycles, circular⟩ := (markCycles_local knot).1 rewoven rewoven_agrees
  refine ⟨rewoven_agrees, cycles, ?_, ?_, (markCycles_local rewoven).2.1⟩
  · exact circular "B" (by decide) 2 _ _ 4 5 rfl rfl
  · exact circular "A" (by decide) 0 _ _ 0 4 rfl rfl

end Wiring.Graph
