import Mathlib.Data.List.Perm.Lattice
import Wiring.Proofs.Restriction

/-! # Consistent graphs

A graph that was assembled has different, non-empty node ids, edges that start at nodes, and no
marks. Once its cycles are marked, every part of it that is not torn is consistent: its edges start
at its nodes, its cycles lie inside it with all their edges, each is closed by a marked edge of its
own, and every way round passes a marked edge. The whole graph is one such part.
-/

namespace Wiring.Graph

/-- Node ids are different and non-empty, edges start at nodes, and no edge is marked. -/
structure Assembled (graph : Graph) : Prop where
  nodup : graph.ids.Nodup
  named : ∀ id ∈ graph.ids, id ≠ ""
  sources : ∀ edge ∈ graph.edges, edge.source ∈ graph.ids
  unmarked : ∀ edge ∈ graph.edges, edge.circular = none

/-- What a part of a whole graph shows. Its edges may lead to tokens that are no nodes of the whole
graph; its cycles and their marks agree. -/
structure Consistent (whole part : Graph) : Prop where
  nodup : part.ids.Nodup
  named : ∀ id ∈ part.ids, id ≠ ""
  sources : ∀ edge ∈ part.edges, edge.source ∈ part.ids
  targets : ∀ edge ∈ part.edges, edge.target ∈ whole.ids → edge.target ∈ part.ids
  simple : ∀ cycle ∈ part.cycles,
    2 ≤ cycle.length ∧ cycle.Nodup ∧ ∀ id ∈ cycle, id ∈ part.ids
  steps : ∀ cycle ∈ part.cycles, ∀ step ∈ cycleSteps cycle,
    ∃ edge ∈ part.edges, edge.source = step.1 ∧ edge.target = step.2
  closed : ∀ cycle ∈ part.cycles, ∃ edge ∈ part.edges, edge.circular = some true ∧
    cycle.getLast? = some edge.source ∧ cycle.head? = some edge.target
  counted : part.cycles.length =
    part.edges.countP fun edge => edge.circular = some true ∧ edge.source ≠ edge.target
  marked : ∀ id places, part.Walk id places id → places ≠ [] →
    ∃ place ∈ places, ∃ edge, part.edges[place]? = some edge ∧ edge.circular = some true

variable {graph : Graph} {reach : Reach} {place : Nat} {edge : Edge} {cycle : List String}

section Everything

def everything (graph : Graph) : Reach where
  reached := graph.ids ++ graph.edges.map (·.source) ++ graph.edges.map (·.target)
  followed := List.range graph.edges.length

private theorem everything_coherent (graph : Graph) : graph.everything.Coherent graph where
  ends found _ := by
    have listed := List.mem_of_getElem? found
    simp only [everything, List.mem_append]
    exact ⟨.inl (.inr (List.mem_map_of_mem listed)), .inr (List.mem_map_of_mem listed)⟩
  round found _ _ := List.mem_range.mpr (List.getElem?_eq_some_iff.mp found).1

/-- A graph whose listed cycles are cycles is the part of it that holds everything. -/
theorem keep_everything (sound : ∀ cycle ∈ graph.cycles, graph.IsCycle cycle) :
    graph.keep graph.everything = graph := by
  have nodes : (graph.keep graph.everything).nodes = graph.nodes := by
    refine List.filter_eq_self.mpr fun node listed => ?_
    have known : node.id ∈ graph.ids := List.mem_map_of_mem listed
    simp [everything, known]
  have edges : (graph.keep graph.everything).edges = graph.edges := by
    have all : (graph.edges.zipIdx.filter fun edge => graph.everything.followed.contains edge.2) =
        graph.edges.zipIdx := by
      refine List.filter_eq_self.mpr ?_
      rintro ⟨edge, place⟩ listed
      have found := List.mem_zipIdx_iff_getElem?.mp listed
      simpa [everything] using (List.getElem?_eq_some_iff.mp found).1
    simp only [keep, all]
    exact List.zipIdx_map_fst 0 graph.edges
  have cycles : (graph.keep graph.everything).cycles = graph.cycles := by
    rw [cycles_keep sound graph.everything_coherent]
    refine List.filter_eq_self.mpr fun cycle listed => ?_
    obtain ⟨id, member⟩ := List.exists_mem_of_ne_nil cycle (sound cycle listed).nonempty
    have known := (sound cycle listed).mem_ids member
    exact List.any_eq_true.mpr ⟨id, member, by simp [everything, known]⟩
  calc
    graph.keep graph.everything = ⟨(graph.keep graph.everything).nodes,
      (graph.keep graph.everything).edges, (graph.keep graph.everything).cycles⟩ := rfl
    _ = ⟨graph.nodes, graph.edges, graph.cycles⟩ := by rw [nodes, edges, cycles]
    _ = graph := rfl

/-- A restriction keeps a part that is not torn; without entries this is everything. -/
theorem exists_coherent_keep (sound : ∀ cycle ∈ graph.cycles, graph.IsCycle cycle)
    (entries : List String) (direction : Direction) :
    ∃ reach : Reach, reach.Coherent graph ∧ graph.restrict entries direction = graph.keep reach := by
  cases entries with
  | nil => exact ⟨graph.everything, graph.everything_coherent, (keep_everything sound).symm⟩
  | cons entry entries =>
    exact ⟨_, reachAlong_coherent graph (entry :: entries) direction,
      restrict_eq_keep (List.cons_ne_nil _ _) direction⟩

end Everything

section Part

variable (assembled : graph.Assembled)
include assembled

/-- In an assembled graph the marked edges are the circular ones. -/
theorem Assembled.marked_iff (found : graph.markCycles.edges[place]? = some edge) :
    edge.circular = some true ↔ place ∈ graph.circularity.circular := by
  obtain ⟨plain, found', _, _, marked⟩ := exists_unmarked found
  rw [marked, assembled.unmarked plain (List.mem_of_getElem? found')]
  simp

private theorem Assembled.source_known (found : graph.markCycles.edges[place]? = some edge) :
    edge.source ∈ graph.ids := by
  obtain ⟨plain, found', source, _, _⟩ := exists_unmarked found
  exact source ▸ assembled.sources plain (List.mem_of_getElem? found')

/-- Every way round in a part passes a marked edge. -/
theorem Assembled.walk_marked {id : String} {places : List Nat}
    (walk : (graph.markCycles.keep reach).Walk id places id) (nonempty : places ≠ []) :
    ∃ place ∈ places, ∃ edge, (graph.markCycles.keep reach).edges[place]? = some edge ∧
      edge.circular = some true := by
  by_contra unmarked
  push Not at unmarked
  have sources : ∀ place ∈ places, ∀ edge,
      (graph.markCycles.keep reach).edges[place]? = some edge → edge.source ∈ graph.ids := by
    intro place _ edge found
    obtain ⟨place', found', _⟩ := mem_edges_keep_iff.mp (List.mem_of_getElem? found)
    exact assembled.source_known found'
  have start : id ∈ graph.ids := by
    obtain ⟨place, rest, rfl⟩ := List.exists_cons_of_ne_nil nonempty
    obtain ⟨edge, found, rfl⟩ := walk.source_of_cons
    exact sources place (List.mem_cons_self ..) edge found
  -- targets need not be nodes, but on a closed walk each is the source of the next edge
  have targets := walk.forall_target sources start
  refine nonempty (walk.eq_nil_of_avoids graph ?_)
  intro place member edge found
  obtain ⟨place', found', _⟩ := mem_edges_keep_iff.mp (List.mem_of_getElem? found)
  obtain ⟨plain, there, source, target, _⟩ := exists_unmarked found'
  refine ⟨place', plain, there, source, target, ⟨plain, there, ?_, ?_⟩, ?_⟩
  · exact source ▸ sources place member edge found
  · exact target ▸ targets place member edge found
  · intro closed
    exact unmarked place member edge found ((assembled.marked_iff found').mpr closed)

private theorem Assembled.closing_iff (item : Edge × Nat)
    (listed : item ∈ graph.markCycles.edges.zipIdx) :
    item.1.circular = some true ∧ item.1.source ≠ item.1.target ↔
      item.2 ∈ graph.circularity.circular ∧ graph.loopAt item.2 = false := by
  have found := List.mem_zipIdx_iff_getElem?.mp listed
  obtain ⟨plain, found', source, target, _⟩ := exists_unmarked found
  rw [assembled.marked_iff found, loopAt_eq found', Edge.isLoop, decide_eq_false_iff_not, source,
    target]

end Part

/-- Counting places in a list without repetition is counting the edges at these places. -/
theorem countP_zipIdx {edges : List Edge} {places : List Nat} (nodup : places.Nodup)
    (within : ∀ place ∈ places, place < edges.length) (pick : Nat → Bool) :
    (edges.zipIdx.countP fun item => pick item.2 && places.contains item.2) = places.countP pick := by
  have same : (List.range edges.length).filter places.contains |>.Perm places := by
    refine (List.perm_ext_iff_of_nodup (List.nodup_range.filter _) nodup).mpr fun place => ?_
    simp only [List.mem_filter, List.mem_range, List.contains_iff_mem]
    exact ⟨fun both => both.2, fun listed => ⟨within place listed, listed⟩⟩
  have places_eq : edges.zipIdx.map (·.2) = List.range edges.length := by
    rw [List.zipIdx_map_snd, List.range_eq_range']
  calc
    (edges.zipIdx.countP fun item => pick item.2 && places.contains item.2)
      = (edges.zipIdx.map (·.2)).countP fun place => pick place && places.contains place := by
        rw [List.countP_map]
        rfl
    _ = ((List.range edges.length).filter places.contains).countP pick := by
        rw [places_eq, List.countP_filter]
    _ = places.countP pick := same.countP_eq pick

section Part

variable (assembled : graph.Assembled) (coherent : reach.Coherent graph.markCycles)
include assembled coherent

/-- A part lists as many cycles as it has marked edges that are no loops. -/
theorem Assembled.length_cycles :
    (graph.markCycles.keep reach).cycles.length =
      (graph.markCycles.keep reach).edges.countP fun edge =>
        edge.circular = some true ∧ edge.source ≠ edge.target := by
  have within : ∀ place ∈ graph.circularity.circular, place < graph.markCycles.edges.length := by
    intro place closed
    obtain ⟨edge, found, _⟩ := exists_cycle_of_mem_circular closed
    obtain ⟨marked, found', _⟩ := exists_marked found
    exact (List.getElem?_eq_some_iff.mp found').1
  calc
    (graph.markCycles.keep reach).cycles.length
      = graph.circularity.circular.countP
          fun place => reach.followed.contains place && !graph.loopAt place := by
        rw [(cycles_keep_closed coherent).length_eq, List.filter_filter,
          List.countP_eq_length_filter]
    _ = graph.markCycles.edges.zipIdx.countP fun item =>
          (reach.followed.contains item.2 && !graph.loopAt item.2) &&
            graph.circularity.circular.contains item.2 :=
        (countP_zipIdx (circular_nodup graph) within _).symm
    _ = graph.markCycles.edges.zipIdx.countP fun item =>
          decide (item.1.circular = some true ∧ item.1.source ≠ item.1.target) &&
            reach.followed.contains item.2 := by
        refine List.countP_congr fun item listed => ?_
        have closing := assembled.closing_iff item listed
        simp only [Bool.and_eq_true, decide_eq_true_eq, closing, List.contains_iff_mem,
          Bool.not_eq_true']
        tauto
    _ = (graph.markCycles.keep reach).edges.countP fun edge =>
          edge.circular = some true ∧ edge.source ≠ edge.target := by
        simp only [keep, List.countP_map, List.countP_filter]
        rfl

/-- A part of an assembled graph with its cycles marked is consistent if it is not torn. -/
theorem Assembled.consistent : Consistent graph.markCycles (graph.markCycles.keep reach) where
  nodup := assembled.nodup.sublist (List.filter_sublist.map _)
  named id member := assembled.named id (mem_ids_keep_iff.mp member).1
  sources edge listed := by
    obtain ⟨place, found, followed⟩ := mem_edges_keep_iff.mp listed
    exact mem_ids_keep_iff.mpr ⟨assembled.source_known found, (coherent.ends found followed).1⟩
  targets edge listed known := by
    obtain ⟨place, found, followed⟩ := mem_edges_keep_iff.mp listed
    exact mem_ids_keep_iff.mpr ⟨known, (coherent.ends found followed).2⟩
  simple cycle listed := by
    obtain ⟨found, _, inside, _⟩ := of_mem_cycles_keep listed
    obtain ⟨isCycle, long⟩ := isCycle_of_mem_markCycles found
    exact ⟨long, isCycle.nodup, inside⟩
  steps cycle listed := (of_mem_cycles_keep listed).2.2.2
  closed cycle listed := by
    obtain ⟨found, nonempty, inside, _⟩ := of_mem_cycles_keep listed
    obtain ⟨isCycle, _⟩ := isCycle_of_mem_markCycles found
    obtain ⟨place, circular, closes⟩ := exists_closing_place found
    obtain ⟨id, member⟩ := List.exists_mem_of_ne_nil cycle nonempty
    have touched : ∃ id ∈ cycle, id ∈ reach.reached :=
      ⟨id, member, (mem_ids_keep_iff.mp (inside id member)).2⟩
    have followed :=
      (exists_reached_iff_followed isCycle coherent closes.markCycles).mp touched
    obtain ⟨edge, there, atLast, atFirst⟩ := closes.markCycles
    exact ⟨edge, mem_edges_keep_iff.mpr ⟨place, there, followed⟩,
      (assembled.marked_iff there).mpr circular, atLast, atFirst⟩
  counted := assembled.length_cycles coherent
  marked _ _ walk nonempty := assembled.walk_marked walk nonempty

end Part

end Wiring.Graph
