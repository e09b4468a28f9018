import Mathlib.Data.List.Rotate
import Wiring.Proofs.Recursion

/-! # How often a cycle is listed

A listed cycle goes down a line, so that it starts at the node that was entered first and ends at
the one whose edge closes it. No other turn of it is listed, and it is listed once for each edge
from its last node to its first: all these edges are examined while its first node is under way.
-/

namespace Wiring.Graph

variable {graph : Graph} {cycle other : List String}

/-- The arcs between two nodes are as many as the edges between their ids. -/
theorem countP_arcs {source target : Fin graph.ids.length}
    (owned : lastIndex? (graph.ids.get source) graph.ids = some source)
    (owned' : lastIndex? (graph.ids.get target) graph.ids = some target) :
    (graph.arcs.get source).countP (fun arc => arc.target = target) =
      graph.edges.countP fun edge =>
        edge.source = graph.ids.get source ∧ edge.target = graph.ids.get target := by
  rw [arcs_eq_outgoing, outgoing, List.countP_filterMap]
  calc
    _ = graph.edges.zipIdx.countP fun item =>
          item.1.source = graph.ids.get source ∧ item.1.target = graph.ids.get target := by
        refine List.countP_congr ?_
        rintro ⟨edge, place⟩ _
        rw [decide_eq_true_eq, ← lastIndex?_eq_iff owned, ← lastIndex?_eq_iff owned']
        by_cases here : lastIndex? edge.source graph.ids = some source <;>
          cases there : lastIndex? edge.target graph.ids <;> simp [here, there]
    _ = (graph.edges.zipIdx.map (·.1)).countP fun edge =>
          edge.source = graph.ids.get source ∧ edge.target = graph.ids.get target := by
        rw [List.countP_map]
        rfl
    _ = _ := by rw [List.zipIdx_map_fst]

section Closings

variable {closing twin : Search.Closing graph.arcs}

/-- A closing on a line is known by its ends. -/
theorem ringIds_eq_iff
    (onLine : closing.ring = Search.ring graph.arcs closing.source closing.arc.target)
    (onLine' : twin.ring = Search.ring graph.arcs twin.source twin.arc.target) :
    ringIds twin = ringIds closing ↔
      twin.source = closing.source ∧ twin.arc.target = closing.arc.target := by
  constructor
  · intro same
    have last := ringIds_getLast? twin
    have first := ringIds_head? twin
    rw [same, ringIds_getLast?] at last
    rw [same, ringIds_head?] at first
    have source := lastIndex?_source twin.leaves
    have target := lastIndex?_target twin.leaves
    rw [← Option.some.inj last, lastIndex?_source closing.leaves] at source
    rw [← Option.some.inj first, lastIndex?_target closing.leaves] at target
    exact ⟨(Option.some.inj source).symm, (Option.some.inj target).symm⟩
  · rintro ⟨source, target⟩
    rw [ringIds, ringIds, onLine, onLine', source, target]

/-- Closings between two nodes are as many as the arcs between them, if there are any. -/
theorem countP_closings {closings : List (Search.Closing graph.arcs)}
    (circular : graph.circularity.circular = closings.map (·.arc.edge))
    (onLine : closing.arc.target ∈ Search.line graph.arcs closing.source) :
    (closings.countP fun twin =>
      twin.source = closing.source ∧ twin.arc.target = closing.arc.target) =
      (graph.arcs.get closing.source).countP fun arc => arc.target = closing.arc.target := by
  have numbered := arcs_numbered graph.ids graph.edges
  have nodup : (closings.map (·.arc.edge)).Nodup := circular ▸ circular_nodup graph
  have same : ((closings.filter fun twin =>
      twin.source = closing.source ∧ twin.arc.target = closing.arc.target).map (·.arc)).Perm
      ((graph.arcs.get closing.source).filter fun arc => arc.target = closing.arc.target) := by
    refine (List.perm_ext_iff_of_nodup ?_ ?_).mpr fun arc => ?_
    · refine .of_map (·.edge) ?_
      rw [List.map_map]
      exact nodup.sublist (List.filter_sublist.map _)
    · exact (Search.Numbered.nodup numbered closing.source).of_map.filter _
    simp only [List.mem_map, List.mem_filter, decide_eq_true_eq]
    constructor
    · rintro ⟨twin, ⟨_, source, target⟩, rfl⟩
      exact ⟨source ▸ twin.leaves, target⟩
    · rintro ⟨leaves, target⟩
      -- an arc to a node on the line is circular, and its closing is the only one with its number
      have closes : arc.edge ∈ graph.circularity.circular :=
        mem_circular_iff.mpr ((Search.edge_mem_circular_iff numbered leaves).mpr (target ▸ onLine))
      rw [circular] at closes
      obtain ⟨twin, member, edge⟩ := List.mem_map.mp closes
      obtain ⟨source, rfl⟩ := numbered.eq twin.leaves leaves edge
      exact ⟨twin, ⟨member, source, target⟩, rfl⟩
  rw [List.countP_eq_length_filter, List.countP_eq_length_filter, ← same.length_eq, List.length_map]

end Closings

/-- A listed cycle is listed once for each edge from its last node to its first. -/
theorem count_cycles (listed : cycle ∈ graph.circularity.cycles) {first last : String}
    (atFirst : cycle.head? = some first) (atLast : cycle.getLast? = some last) :
    graph.circularity.cycles.count cycle =
      graph.edges.countP fun edge => edge.source = last ∧ edge.target = first := by
  obtain ⟨closings, circular, cycles, lines⟩ := exists_closings graph
  rw [cycles] at listed
  obtain ⟨closing, member, rfl⟩ := List.mem_map.mp listed
  obtain ⟨member, open'⟩ := List.mem_filter.mp member
  rw [ringIds_head?] at atFirst
  rw [ringIds_getLast?] at atLast
  obtain rfl := Option.some.inj atFirst
  obtain rfl := Option.some.inj atLast
  calc
    graph.circularity.cycles.count (ringIds closing)
      = closings.countP fun twin => (ringIds twin == ringIds closing) && !twin.isLoop := by
        rw [cycles, List.count, List.countP_map, List.countP_filter]
        rfl
    _ = closings.countP fun twin =>
          twin.source = closing.source ∧ twin.arc.target = closing.arc.target := by
        refine List.countP_congr fun twin member' => ?_
        have ends := ringIds_eq_iff (lines closing member).2 (lines twin member').2
        simp only [Bool.and_eq_true, beq_iff_eq, ends, decide_eq_true_eq, and_iff_left_iff_imp]
        rintro ⟨source, target⟩
        rw [Search.Closing.isLoop, source, target]
        exact open'
    _ = (graph.arcs.get closing.source).countP fun arc => arc.target = closing.arc.target :=
        countP_closings circular (lines closing member).1
    _ = _ := countP_arcs (lastIndex?_source closing.leaves) (lastIndex?_target closing.leaves)

/-- Two listed cycles that are turns of each other are the same. -/
theorem eq_of_isRotated (listed : cycle ∈ graph.circularity.cycles)
    (listed' : other ∈ graph.circularity.cycles) (turned : cycle.IsRotated other) :
    cycle = other := by
  obtain ⟨closings, _, cycles, lines⟩ := exists_closings graph
  rw [cycles] at listed listed'
  obtain ⟨closing, member, rfl⟩ := List.mem_map.mp listed
  obtain ⟨twin, member', rfl⟩ := List.mem_map.mp listed'
  -- both go down a line, so that their nodes are ordered by the lengths of their lines
  have down : ∀ closing ∈ closings, closing.ring.Pairwise fun first second =>
      (Search.line graph.arcs first).length < (Search.line graph.arcs second).length := by
    intro closing member
    rw [(lines closing member).2]
    exact (Search.line_pairwise graph.arcs closing.source).sublist (List.dropWhile_sublist _)
  have same : closing.ring.Perm twin.ring := by
    rw [← filterMap_ringIds closing, ← filterMap_ringIds twin]
    exact turned.perm.filterMap _
  have equal : closing.ring = twin.ring :=
    same.eq_of_pairwise (fun _ _ _ _ less more => absurd less (Nat.lt_asymm more))
      (down closing (List.mem_of_mem_filter member)) (down twin (List.mem_of_mem_filter member'))
  rw [ringIds, ringIds, equal]

/-- Without parallel edges no cycle is listed twice, not even turned. -/
theorem cycles_pairwise (simple : (graph.edges.map fun edge => (edge.source, edge.target)).Nodup) :
    graph.circularity.cycles.Pairwise fun cycle other => ¬ cycle.IsRotated other := by
  have once : graph.circularity.cycles.Nodup := by
    refine List.nodup_iff_count_le_one.mpr fun cycle => ?_
    by_cases listed : cycle ∈ graph.circularity.cycles
    · obtain ⟨place, _, edge, _, atLast, atFirst⟩ := exists_closing_place listed
      have parallel : (graph.edges.map fun edge => (edge.source, edge.target)).count
          (edge.source, edge.target) = graph.circularity.cycles.count cycle := by
        rw [count_cycles listed atFirst atLast, List.count, List.countP_map]
        exact List.countP_congr fun other _ => by simp
      exact parallel ▸ List.nodup_iff_count_le_one.mp simple _
    · rw [List.count_eq_zero.mpr listed]
      exact Nat.zero_le 1
  refine once.imp_of_mem ?_
  intro cycle other listed listed' apart turned
  exact apart (eq_of_isRotated listed listed' turned)

/-- No cycle is listed twice but for parallel edges. Listed cycles that are turns of each other are
the same list, and each is listed as often as there are edges from its last id to its first; so
without parallel edges listed cycles are different, even if turned. -/
theorem cycles_once (graph : Graph) :
    (∀ cycle ∈ graph.circularity.cycles, ∀ other ∈ graph.circularity.cycles,
      cycle.IsRotated other → cycle = other) ∧
    (∀ cycle ∈ graph.circularity.cycles, ∃ first last, cycle.head? = some first ∧
      cycle.getLast? = some last ∧ graph.circularity.cycles.count cycle =
        graph.edges.countP fun edge => edge.source = last ∧ edge.target = first) ∧
    ((graph.edges.map fun edge => (edge.source, edge.target)).Nodup →
      graph.circularity.cycles.Pairwise fun cycle other => ¬ cycle.IsRotated other) := by
  refine ⟨fun _ listed _ listed' => eq_of_isRotated listed listed', ?_, cycles_pairwise⟩
  intro cycle listed
  obtain ⟨place, _, edge, _, atLast, atFirst⟩ := exists_closing_place listed
  exact ⟨edge.target, edge.source, atFirst, atLast, count_cycles listed atFirst atLast⟩

/-- Two cycles that share an edge. -/
def overlap : Graph where
  nodes := [⟨"A", .service⟩, ⟨"B", .service⟩, ⟨"C", .service⟩]
  edges := [⟨"A", "B", none, none⟩, ⟨"B", "A", none, none⟩, ⟨"B", "C", none, none⟩,
    ⟨"C", "A", none, none⟩]
  cycles := []

private theorem circularity_overlap :
    overlap.circularity = ⟨[["A", "B"], ["A", "B", "C"]], [1, 3]⟩ := by
  rw [circularity, Search.all_eq_moment _ 12 (by decide +kernel)]
  decide +kernel

theorem cycles_once_knot :
    ["A", "B"] ∈ knot.circularity.cycles ∧ knot.circularity.cycles.count ["A", "B"] = 2 ∧
    (∀ cycle ∈ overlap.circularity.cycles, cycle.IsRotated ["A", "B", "C"] →
      cycle = ["A", "B", "C"]) ∧
    (overlap.edges.map fun edge => (edge.source, edge.target)).Nodup ∧
    overlap.circularity.cycles.Pairwise fun cycle other => ¬ cycle.IsRotated other := by
  have listed : ["A", "B"] ∈ knot.circularity.cycles := by
    rw [circularity_knot]
    exact List.mem_cons_self ..
  have listed' : ["A", "B", "C"] ∈ overlap.circularity.cycles := by
    rw [circularity_overlap]
    exact List.mem_cons_of_mem _ (List.mem_singleton_self _)
  have simple : (overlap.edges.map fun edge => (edge.source, edge.target)).Nodup := by decide
  obtain ⟨first, last, atFirst, atLast, count⟩ := (cycles_once knot).2.1 _ listed
  obtain rfl := Option.some.inj atFirst
  obtain rfl := Option.some.inj atLast
  obtain ⟨turns, _, apart⟩ := cycles_once overlap
  exact ⟨listed, count.trans (by decide), fun cycle found => turns cycle found _ listed', simple,
    apart simple⟩

end Wiring.Graph
