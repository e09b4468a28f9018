import Mathlib.Order.WellFounded
import Wiring.Proofs.Links
import Wiring.Proofs.Search.Returns
import Wiring.Proofs.Walk

/-! # Circular edges and cycles of a graph

The search is complete: every walk through known nodes that comes back to where it starts goes
along a circular edge. It is sound: every circular edge lies on a cycle, and every listed cycle is
one. Both hold of any graph, with repeated node ids, parallel edges, loops and unknown targets.
-/

namespace Wiring.Graph

variable {graph : Graph} {start stop : String} {places : List Nat} {place : Nat} {edge : Edge}

/-- The arcs that the search for cycles works on. -/
abbrev arcs (graph : Graph) : Arcs graph.ids.length := arcsOf (links graph.ids graph.edges)

theorem mem_circular_iff :
    place ∈ graph.circularity.circular ↔ place ∈ (Search.all graph.arcs).circular :=
  Array.mem_toList_iff

def loopAt (graph : Graph) (place : Nat) : Bool := (graph.edges[place]?).any Edge.isLoop

theorem loopAt_eq (found : graph.edges[place]? = some edge) : graph.loopAt place = edge.isLoop := by
  rw [loopAt, found, Option.any_some]

section Complete

/-- A known edge that is not circular is an open arc. -/
theorem Known.open_arc (known : graph.Known place) (found : graph.edges[place]? = some edge)
    (avoids : place ∉ graph.circularity.circular) :
    ∃ source target, lastIndex? edge.source graph.ids = some source ∧
      lastIndex? edge.target graph.ids = some target ∧
      Search.Open graph.arcs (Search.all graph.arcs).circular target source := by
  obtain ⟨edge', found', sourceKnown, targetKnown⟩ := known
  obtain rfl := Option.some.inj (found.symm.trans found')
  obtain ⟨source, atSource⟩ := exists_lastIndex? sourceKnown
  obtain ⟨target, atTarget⟩ := exists_lastIndex? targetKnown
  refine ⟨source, target, atSource, atTarget, ⟨place, target⟩, ?_, rfl, ?_⟩
  · exact mem_arcs_iff.mpr ⟨edge, found, atSource, atTarget⟩
  · exact fun closed => avoids (mem_circular_iff.mpr closed)

/-- A walk that avoids the circular edges goes down along open arcs. -/
theorem Walk.descends (walk : graph.Walk start places stop) (nonempty : places ≠ [])
    (known : ∀ place ∈ places, graph.Known place)
    (avoids : ∀ place ∈ places, place ∉ graph.circularity.circular) :
    ∃ first last, lastIndex? start graph.ids = some first ∧ lastIndex? stop graph.ids = some last ∧
      Relation.TransGen (Search.Open graph.arcs (Search.all graph.arcs).circular) last first := by
  induction walk with
  | nil id => exact absurd rfl nonempty
  | @cons edge place places stop found rest ih =>
    obtain ⟨source, target, atSource, atTarget, isOpen⟩ :=
      (known place (List.mem_cons_self ..)).open_arc found (avoids place (List.mem_cons_self ..))
    cases places with
    | nil =>
      rw [← rest.eq_of_nil]
      exact ⟨source, target, atSource, atTarget, .single isOpen⟩
    | cons next later =>
      obtain ⟨first, last, atFirst, atLast, descent⟩ := ih (List.cons_ne_nil _ _)
        (fun other member => known other (List.mem_cons_of_mem _ member))
        (fun other member => avoids other (List.mem_cons_of_mem _ member))
      obtain rfl := Option.some.inj (atTarget.symm.trans atFirst)
      exact ⟨source, last, atSource, atLast, descent.tail isOpen⟩

/-- A walk that comes back goes along a circular edge. -/
theorem Walk.meets_circular {id : String} (walk : graph.Walk id places id)
    (known : ∀ place ∈ places, graph.Known place) (nonempty : places ≠ []) :
    ∃ place ∈ places, place ∈ graph.circularity.circular := by
  by_contra avoids
  push Not at avoids
  obtain ⟨first, last, atFirst, atLast, descent⟩ := walk.descends nonempty known avoids
  obtain rfl := Option.some.inj (atFirst.symm.trans atLast)
  exact (Search.all_open_wellFounded graph.arcs).transGen.irrefl.irrefl first descent

/-- A closed walk of any graph is empty if its edges stand for known edges that are not circular. -/
theorem Walk.eq_nil_of_avoids {other : Graph} {id : String} (walk : other.Walk id places id)
    (graph : Graph) (image : ∀ place ∈ places, ∀ edge, other.edges[place]? = some edge →
      ∃ place' edge', graph.edges[place']? = some edge' ∧ edge'.source = edge.source ∧
        edge'.target = edge.target ∧ graph.Known place' ∧ place' ∉ graph.circularity.circular) :
    places = [] := by
  obtain ⟨places', walk', same, good⟩ := walk.transfer graph
    (fun place => graph.Known place ∧ place ∉ graph.circularity.circular) image
  by_contra nonempty
  have nonempty' : places' ≠ [] := by
    rwa [← List.length_pos_iff, same, List.length_pos_iff]
  obtain ⟨place, member, closed⟩ :=
    walk'.meets_circular (fun place member => (good place member).1) nonempty'
  exact (good place member).2 closed

/-- Without its circular edges a graph is acyclic. -/
theorem without_circular_acyclic (graph : Graph) :
    (graph.without graph.circularity.circular).Acyclic := by
  intro id places walk known
  refine walk.eq_nil_of_avoids graph ?_
  intro place member edge found
  obtain ⟨edge', found', sourceKnown, targetKnown⟩ := known place member
  obtain rfl := Option.some.inj (found.symm.trans found')
  obtain ⟨place', there, kept⟩ := mem_without_iff.mp (List.mem_of_getElem? found)
  exact ⟨place', edge, there, rfl, rfl, ⟨edge, there, sourceKnown, targetKnown⟩, kept⟩

/-- A loop at a known node is circular. -/
theorem loop_mem_circular (found : graph.edges[place]? = some edge)
    (loop : edge.source = edge.target) (known : edge.source ∈ graph.ids) :
    place ∈ graph.circularity.circular := by
  have walk : graph.Walk edge.source [place] edge.source := .cons found (loop ▸ .nil _)
  obtain ⟨other, member, closed⟩ := walk.meets_circular
    (fun other member => List.mem_singleton.mp member ▸ ⟨edge, found, known, loop ▸ known⟩)
    (List.cons_ne_nil _ _)
  exact List.mem_singleton.mp member ▸ closed

end Complete

section Sound

variable {source : Fin graph.ids.length} {arc : Arc graph.ids.length}

private theorem linked_of_arc (leaves : arc ∈ graph.arcs.get source) :
    graph.Linked (graph.ids.get source) (graph.ids.get arc.target) := by
  obtain ⟨edge, represents⟩ := mem_arcs_iff.mp leaves
  exact ⟨List.get_mem .., List.get_mem .., edge, List.mem_of_getElem? represents.found,
    represents.get_source.symm, represents.get_target.symm⟩

/-- A node that an arc leads to is the one that its id stands for. -/
theorem lastIndex?_target (leaves : arc ∈ graph.arcs.get source) :
    lastIndex? (graph.ids.get arc.target) graph.ids = some arc.target := by
  obtain ⟨edge, represents⟩ := mem_arcs_iff.mp leaves
  rw [represents.get_target, represents.target]

/-- So is a node that an arc leaves. -/
theorem lastIndex?_source (leaves : arc ∈ graph.arcs.get source) :
    lastIndex? (graph.ids.get source) graph.ids = some source := by
  obtain ⟨edge, represents⟩ := mem_arcs_iff.mp leaves
  rw [represents.get_source, represents.source]

/-- The ids along a closing. -/
def ringIds (closing : Search.Closing graph.arcs) : List String := closing.ring.map graph.ids.get

variable (closing : Search.Closing graph.arcs)

/-- Every node of the ring is the target of an arc, so that its id leads back to it. -/
theorem lastIndex?_ring :
    ∀ node ∈ closing.ring, lastIndex? (graph.ids.get node) graph.ids = some node := by
  refine closing.joined.induction _ _ ?_ ?_
  · rintro _ _ ⟨arc, leaves, rfl⟩ _
    exact lastIndex?_target leaves
  · intro nonempty
    have first := closing.first
    rw [List.head?_eq_some_head nonempty] at first
    rw [Option.some.inj first]
    exact lastIndex?_target closing.leaves

/-- The ids along a closing tell its nodes. -/
theorem filterMap_ringIds : (ringIds closing).filterMap (lastIndex? · graph.ids) = closing.ring := by
  rw [ringIds, List.filterMap_map]
  exact (List.filterMap_congr (lastIndex?_ring closing)).trans List.filterMap_some

private theorem ringIds_nodup : (ringIds closing).Nodup := by
  refine closing.simple.map_on ?_
  intro node member other member' same
  have here := lastIndex?_ring closing node member
  rw [same, lastIndex?_ring closing other member'] at here
  exact (Option.some.inj here).symm

theorem ringIds_head? : (ringIds closing).head? = some (graph.ids.get closing.arc.target) := by
  rw [ringIds, List.head?_map, closing.first, Option.map_some]

theorem ringIds_getLast? : (ringIds closing).getLast? = some (graph.ids.get closing.source) := by
  rw [ringIds, List.getLast?_map, closing.last, Option.map_some]

/-- A closing is a cycle of the graph. -/
theorem ringIds_isCycle : graph.IsCycle (ringIds closing) where
  nonempty empty := by
    have first := ringIds_head? closing
    rw [empty] at first
    nomatch first
  nodup := ringIds_nodup closing
  linked := by
    refine forall_cycleSteps_of_isChain ?_ (ringIds_head? closing) (ringIds_getLast? closing)
      (linked_of_arc closing.leaves)
    rw [ringIds, List.isChain_map]
    refine closing.joined.imp ?_
    rintro _ _ ⟨arc, leaves, rfl⟩
    exact linked_of_arc leaves

private theorem two_le_length_ringIds (other : closing.isLoop = false) :
    2 ≤ (ringIds closing).length := by
  have first := closing.first
  have last := closing.last
  rw [ringIds, List.length_map]
  match ring : closing.ring with
  | [] => simp [ring] at first
  | [node] =>
    rw [ring] at first last
    have same : closing.arc.target = closing.source :=
      (Option.some.inj first).symm.trans (Option.some.inj last)
    exact absurd same (of_decide_eq_false other)
  | _ :: _ :: _ => simp

theorem loopAt_closing : graph.loopAt closing.arc.edge = closing.isLoop := by
  obtain ⟨edge, represents⟩ := mem_arcs_iff.mp closing.leaves
  rw [loopAt_eq represents.found, Edge.isLoop, Search.Closing.isLoop]
  exact decide_eq_decide.mpr represents.isLoop_iff.symm

end Sound

/-- What is found in a graph are closings: their edges, and the cycles of those that are no loops.
Each lies on the line of its source. -/
theorem exists_closings (graph : Graph) :
    ∃ closings : List (Search.Closing graph.arcs),
      graph.circularity.circular = closings.map (·.arc.edge) ∧
      graph.circularity.cycles = (closings.filter fun closing => !closing.isLoop).map ringIds ∧
      ∀ closing ∈ closings, closing.arc.target ∈ Search.line graph.arcs closing.source ∧
        closing.ring = Search.ring graph.arcs closing.source closing.arc.target := by
  obtain ⟨closings, ⟨circular, cycles⟩, lines⟩ := Search.all_reports graph.arcs
  refine ⟨closings, circular, ?_, lines⟩
  simp only [circularity, cycles, List.map_map]
  rfl

/-- The edge at a place leads from the last id of a cycle to its first. -/
def Closes (graph : Graph) (cycle : List String) (place : Nat) : Prop :=
  ∃ edge, graph.edges[place]? = some edge ∧ cycle.getLast? = some edge.source ∧
    cycle.head? = some edge.target

theorem Closes.mem_cycleSteps {cycle : List String} (closes : graph.Closes cycle place) :
    ∃ edge, graph.edges[place]? = some edge ∧ (edge.source, edge.target) ∈ cycleSteps cycle := by
  obtain ⟨edge, found, atLast, atFirst⟩ := closes
  exact ⟨edge, found, closing_mem_cycleSteps atFirst atLast⟩

theorem closes_ringIds (closing : Search.Closing graph.arcs) :
    graph.Closes (ringIds closing) closing.arc.edge := by
  obtain ⟨edge, represents⟩ := mem_arcs_iff.mp closing.leaves
  refine ⟨edge, represents.found, ?_, ?_⟩
  · rw [ringIds_getLast?, represents.get_source]
  · rw [ringIds_head?, represents.get_target]

/-- The cycles go in step with the circular edges that are no loops. -/
theorem cycles_closed (graph : Graph) :
    List.Forall₂ graph.Closes graph.circularity.cycles
      (graph.circularity.circular.filter fun place => !graph.loopAt place) := by
  obtain ⟨closings, circular, cycles, _⟩ := exists_closings graph
  have kept : (graph.circularity.circular.filter fun place => !graph.loopAt place) =
      (closings.filter fun closing => !closing.isLoop).map (·.arc.edge) := by
    rw [circular, List.filter_map]
    congr 2
    funext closing
    exact congrArg not (loopAt_closing closing)
  rw [kept, cycles, List.forall₂_map_left_iff, List.forall₂_map_right_iff, List.forall₂_same]
  intro closing _
  exact closes_ringIds closing

/-- Each listed cycle is closed by a circular edge. -/
theorem exists_closing_place {cycle : List String} (listed : cycle ∈ graph.circularity.cycles) :
    ∃ place ∈ graph.circularity.circular, graph.Closes cycle place := by
  obtain ⟨closings, circular, cycles, _⟩ := exists_closings graph
  rw [cycles] at listed
  obtain ⟨closing, member, rfl⟩ := List.mem_map.mp listed
  refine ⟨closing.arc.edge, ?_, closes_ringIds closing⟩
  rw [circular]
  exact List.mem_map_of_mem (List.mem_of_mem_filter member)

/-- No edge is circular twice. -/
theorem circular_nodup (graph : Graph) : graph.circularity.circular.Nodup :=
  ((Search.all_reachable graph.arcs).fresh (arcs_numbered _ _)).once

/-- What is listed as a cycle is one, of two nodes or more. -/
theorem isCycle_of_mem_cycles {cycle : List String} (listed : cycle ∈ graph.circularity.cycles) :
    graph.IsCycle cycle ∧ 2 ≤ cycle.length := by
  obtain ⟨closings, _, cycles, _⟩ := exists_closings graph
  rw [cycles] at listed
  obtain ⟨closing, member, rfl⟩ := List.mem_map.mp listed
  have other : closing.isLoop = false := by simpa using (List.mem_filter.mp member).2
  exact ⟨ringIds_isCycle closing, two_le_length_ringIds closing other⟩

/-- A circular edge leads from one node to another, and lies on a cycle. -/
theorem exists_cycle_of_mem_circular (member : place ∈ graph.circularity.circular) :
    ∃ edge, graph.edges[place]? = some edge ∧ edge.source ∈ graph.ids ∧ edge.target ∈ graph.ids ∧
      ∃ cycle, graph.IsCycle cycle ∧ (edge.source, edge.target) ∈ cycleSteps cycle := by
  obtain ⟨closings, circular, _, _⟩ := exists_closings graph
  rw [circular] at member
  obtain ⟨closing, _, rfl⟩ := List.mem_map.mp member
  obtain ⟨edge, found, atLast, atFirst⟩ := closes_ringIds closing
  have isCycle := ringIds_isCycle closing
  have step := closing_mem_cycleSteps atFirst atLast
  obtain ⟨sourceKnown, targetKnown, _⟩ := isCycle.linked _ step
  exact ⟨edge, found, sourceKnown, targetKnown, ringIds closing, isCycle, step⟩

theorem circular_eq_nil_iff_acyclic (graph : Graph) :
    graph.circularity.circular = [] ↔ graph.Acyclic := by
  constructor
  · intro none id places walk known
    by_contra nonempty
    obtain ⟨place, _, closed⟩ := walk.meets_circular known nonempty
    rw [none] at closed
    nomatch closed
  · intro acyclic
    refine List.eq_nil_iff_forall_not_mem.mpr fun place member => ?_
    obtain ⟨_, _, _, _, cycle, isCycle, _⟩ := exists_cycle_of_mem_circular member
    exact acyclic.not_isCycle cycle isCycle

theorem circular_eq_nil_iff_no_cycle (graph : Graph) :
    graph.circularity.circular = [] ↔ ∀ cycle, ¬ graph.IsCycle cycle := by
  constructor
  · intro none
    exact ((circular_eq_nil_iff_acyclic graph).mp none).not_isCycle
  · intro noCycle
    refine List.eq_nil_iff_forall_not_mem.mpr fun place member => ?_
    obtain ⟨_, _, _, _, cycle, isCycle, _⟩ := exists_cycle_of_mem_circular member
    exact noCycle cycle isCycle

/-- No cycle is listed exactly if no cycle has two nodes or more. -/
theorem cycles_eq_nil_iff (graph : Graph) :
    graph.circularity.cycles = [] ↔ ∀ cycle, graph.IsCycle cycle → cycle.length < 2 := by
  constructor
  · intro none cycle isCycle
    by_contra long
    obtain ⟨id, places, walk, nonempty, good⟩ := isCycle.closed_walk
    obtain ⟨place, member, closed⟩ :=
      walk.meets_circular (fun place member => (good place member).1) nonempty
    obtain ⟨edge, found, other⟩ := (good place member).2
    have reported : place ∈ graph.circularity.circular.filter fun place => !graph.loopAt place :=
      List.mem_filter.mpr ⟨closed, by rw [loopAt_eq found, other (by omega)]; rfl⟩
    have step := cycles_closed graph
    rw [none, List.forall₂_nil_left_iff] at step
    rw [step] at reported
    nomatch reported
  · intro short
    refine List.eq_nil_iff_forall_not_mem.mpr fun cycle listed => ?_
    obtain ⟨isCycle, long⟩ := isCycle_of_mem_cycles listed
    exact absurd (short cycle isCycle) (by omega)

/-- Two nodes with parallel edges, a loop, an edge to no node, and a repeated id. -/
def knot : Graph where
  nodes := [⟨"A", .service⟩, ⟨"B", .service⟩, ⟨"B", .unknown⟩]
  edges := [⟨"A", "B", none, none⟩, ⟨"B", "A", none, none⟩, ⟨"B", "B", none, none⟩,
    ⟨"B", "X", none, none⟩, ⟨"B", "A", none, none⟩]
  cycles := []

theorem circularity_knot : knot.circularity = ⟨[["A", "B"], ["A", "B"]], [1, 2, 4]⟩ := by
  rw [circularity, Search.all_eq_moment _ 12 (by decide +kernel)]
  decide +kernel

/-- The search misses no cycle: every closed walk through known nodes goes along a circular edge,
so that nothing circular remains without these edges. No edge is circular exactly if there is no
cycle at all, and no cycle is listed exactly if there is none of two nodes or more. -/
theorem circularity_complete (graph : Graph) :
    (∀ id places, graph.Walk id places id → (∀ place ∈ places, graph.Known place) → places ≠ [] →
      ∃ place ∈ places, place ∈ graph.circularity.circular) ∧
    (graph.without graph.circularity.circular).Acyclic ∧
    (graph.circularity.circular = [] ↔ graph.Acyclic) ∧
    (graph.circularity.circular = [] ↔ ∀ cycle, ¬ graph.IsCycle cycle) ∧
    (graph.circularity.cycles = [] ↔ ∀ cycle, graph.IsCycle cycle → cycle.length < 2) :=
  ⟨fun _ _ walk known nonempty => walk.meets_circular known nonempty,
    without_circular_acyclic graph, circular_eq_nil_iff_acyclic graph,
    circular_eq_nil_iff_no_cycle graph, cycles_eq_nil_iff graph⟩

theorem circularity_complete_knot :
    knot.Walk "A" [0, 4] "A" ∧ (∀ place ∈ [0, 4], knot.Known place) ∧
      ∃ place ∈ [0, 4], place ∈ knot.circularity.circular := by
  have there : knot.edges[0]? = some ⟨"A", "B", none, none⟩ := rfl
  have back : knot.edges[4]? = some ⟨"B", "A", none, none⟩ := rfl
  have walk : knot.Walk "A" [0, 4] "A" := .cons there (.cons back (.nil "A"))
  have known : ∀ place ∈ [0, 4], knot.Known place := by
    intro place member
    rcases List.mem_pair.mp member with rfl | rfl
    · exact ⟨_, there, by decide, by decide⟩
    · exact ⟨_, back, by decide, by decide⟩
  exact ⟨walk, known, (circularity_complete knot).1 "A" [0, 4] walk known (by decide)⟩

/-- The search reports nothing but cycles: listed cycles are simple, have two nodes or more and an
edge for each step; circular edges lie on cycles, and loops at nodes are circular. Each listed cycle
is closed by one circular edge, each circular edge that is no loop closes one, and none occurs
twice. -/
theorem circularity_sound (graph : Graph) :
    (∀ cycle ∈ graph.circularity.cycles,
      2 ≤ cycle.length ∧ cycle.Nodup ∧ (∀ id ∈ cycle, id ∈ graph.ids) ∧
      ∀ step ∈ cycleSteps cycle, ∃ edge ∈ graph.edges,
        edge.source = step.1 ∧ edge.target = step.2) ∧
    (∀ place ∈ graph.circularity.circular, ∃ edge, graph.edges[place]? = some edge ∧
      edge.source ∈ graph.ids ∧ edge.target ∈ graph.ids ∧
      ∃ cycle, graph.IsCycle cycle ∧ (edge.source, edge.target) ∈ cycleSteps cycle) ∧
    (∀ place edge, graph.edges[place]? = some edge → edge.source = edge.target →
      edge.source ∈ graph.ids → place ∈ graph.circularity.circular) ∧
    graph.circularity.circular.Nodup ∧
    List.Forall₂ graph.Closes graph.circularity.cycles
      (graph.circularity.circular.filter fun place => !graph.loopAt place) ∧
    graph.circularity.cycles.length =
      graph.circularity.circular.countP fun place => !graph.loopAt place := by
  refine ⟨?_, fun _ => exists_cycle_of_mem_circular, fun _ _ => loop_mem_circular,
    circular_nodup graph, cycles_closed graph, ?_⟩
  · intro cycle listed
    obtain ⟨isCycle, long⟩ := isCycle_of_mem_cycles listed
    exact ⟨long, isCycle.nodup, fun id => isCycle.mem_ids,
      fun step member => (isCycle.linked step member).2.2⟩
  · rw [List.countP_eq_length_filter]
    exact (cycles_closed graph).length_eq

theorem circularity_sound_knot :
    ["A", "B"] ∈ knot.circularity.cycles ∧ ["A", "B"].Nodup ∧ 2 ∈ knot.circularity.circular := by
  obtain ⟨simple, _, loops, _⟩ := circularity_sound knot
  have listed : ["A", "B"] ∈ knot.circularity.cycles := by
    rw [circularity_knot]
    exact List.mem_cons_self ..
  exact ⟨listed, (simple _ listed).2.1, loops 2 ⟨"B", "B", none, none⟩ rfl rfl (by decide)⟩

end Wiring.Graph
