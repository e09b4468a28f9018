import Wiring.Proofs.Reachability

/-! # Restricting to several entries

What entries reach together is what some of them reach, and what is reached both ways is what is
reached in either direction. Nodes and edges go along with what is reached. A cycle could be kept
with one part of it reached here and the other there; but the cycles that were found are reached as
a whole or not at all, so they go along too.
-/

namespace Wiring.Graph

variable {graph : Graph} {sense : Sense} {id : String} {place : Nat}

/-- Nodes, edges and cycles of a graph, chosen by their places. -/
structure Selection where
  nodes : Nat → Bool
  edges : Nat → Bool
  cycles : Nat → Bool

def Selection.union (a b : Selection) : Selection where
  nodes place := a.nodes place || b.nodes place
  edges place := a.edges place || b.edges place
  cycles place := a.cycles place || b.cycles place

def select (graph : Graph) (selection : Selection) : Graph where
  nodes := pick graph.nodes selection.nodes
  edges := pick graph.edges selection.edges
  cycles := pick graph.cycles selection.cycles

/-- What a reach keeps: the nodes that it reaches, the edges that it follows, and the cycles that
survive among these. -/
def kept (graph : Graph) (reach : Reach) : Selection where
  nodes place := (graph.nodes[place]?).any fun node => reach.reached.contains node.id
  edges place := reach.followed.contains place
  cycles place := (graph.cycles[place]?).any (survives (graph.keep reach).ids
    ((graph.keep reach).edges.map fun edge => (edge.source, edge.target)))

private theorem keep_eq_select (graph : Graph) (reach : Reach) :
    graph.keep reach = graph.select (graph.kept reach) := by
  have nodes : pick graph.nodes (graph.kept reach).nodes = (graph.keep reach).nodes :=
    pick_eq_filter fun place node found => by simp only [kept, found, Option.any_some]
  have cycles : pick graph.cycles (graph.kept reach).cycles = (graph.keep reach).cycles :=
    pick_eq_filter fun place cycle found => by
      simp only [kept, found, Option.any_some]
      rfl
  rw [select, nodes, cycles]
  rfl

section Kept

variable {reach : Reach}

private theorem kept_nodes_iff :
    (graph.kept reach).nodes place = true ↔
      ∃ node, graph.nodes[place]? = some node ∧ node.id ∈ reach.reached := by
  cases found : graph.nodes[place]? with
  | none => simp [kept, found]
  | some node => simp [kept, found]

private theorem kept_edges_iff : (graph.kept reach).edges place = true ↔ place ∈ reach.followed :=
  List.contains_iff_mem

/-- A cycle is kept exactly if one of its ids is reached. -/
theorem kept_cycles_iff (sound : ∀ cycle ∈ graph.cycles, graph.IsCycle cycle)
    (coherent : reach.Coherent graph) :
    (graph.kept reach).cycles place = true ↔
      ∃ cycle, graph.cycles[place]? = some cycle ∧ ∃ id ∈ cycle, id ∈ reach.reached := by
  cases found : graph.cycles[place]? with
  | none => simp [kept, found]
  | some cycle =>
    have isCycle := sound cycle (List.mem_of_getElem? found)
    simp only [kept, found, Option.any_some, survives_keep_iff isCycle coherent,
      Option.some.injEq, exists_eq_left']

end Kept

/-- A reach holds what one of two others holds. -/
structure Reach.Splits (whole first second : Reach) : Prop where
  reached : ∀ id, id ∈ whole.reached ↔ id ∈ first.reached ∨ id ∈ second.reached
  followed : ∀ place, place ∈ whole.followed ↔ place ∈ first.followed ∨ place ∈ second.followed

/-- What a reach keeps is what its two parts keep, if none of them tears a cycle apart. -/
theorem kept_eq_union {whole first second : Reach}
    (sound : ∀ cycle ∈ graph.cycles, graph.IsCycle cycle) (splits : whole.Splits first second)
    (wholeCoherent : whole.Coherent graph) (firstCoherent : first.Coherent graph)
    (secondCoherent : second.Coherent graph) :
    graph.kept whole = (graph.kept first).union (graph.kept second) := by
  have nodes (place : Nat) : (graph.kept whole).nodes place =
      ((graph.kept first).nodes place || (graph.kept second).nodes place) := by
    rw [Bool.eq_iff_iff, Bool.or_eq_true]
    simp only [kept_nodes_iff, splits.reached, and_or_left, exists_or]
  have edges (place : Nat) : (graph.kept whole).edges place =
      ((graph.kept first).edges place || (graph.kept second).edges place) := by
    rw [Bool.eq_iff_iff, Bool.or_eq_true]
    simp only [kept_edges_iff, splits.followed]
  -- one reached id brings the whole cycle along, so that no cycle needs ids from both parts
  have cycles (place : Nat) : (graph.kept whole).cycles place =
      ((graph.kept first).cycles place || (graph.kept second).cycles place) := by
    rw [Bool.eq_iff_iff, Bool.or_eq_true]
    simp only [kept_cycles_iff sound wholeCoherent, kept_cycles_iff sound firstCoherent,
      kept_cycles_iff sound secondCoherent, splits.reached, and_or_left, exists_or]
  exact congr (congr (congrArg Selection.mk (funext nodes)) (funext edges)) (funext cycles)

section Splits

variable (graph) (first second entries : List String)

private theorem accessible_append :
    graph.Accessible sense (first ++ second) id ↔
      graph.Accessible sense first id ∨ graph.Accessible sense second id := by
  simp only [Accessible, List.mem_append, or_and_right, exists_or]

/-- Entries reach together what some of them reach. -/
theorem reachAlong_append (direction : Direction) :
    (graph.reachAlong (first ++ second) direction).Splits
      (graph.reachAlong first direction) (graph.reachAlong second direction) where
  reached id := by
    simp only [mem_reached_reachAlong_iff, mem_reach_iff, accessible_append, and_or_left, exists_or]
  followed place := by
    simp only [mem_followed_reachAlong_iff, mem_followed_reach_iff, mem_reach_iff,
      accessible_append, and_or_left, exists_or]

/-- Both ways entries reach what they reach in either direction. -/
theorem reachAlong_both :
    (graph.reachAlong entries .both).Splits
      (graph.reachAlong entries .downstream) (graph.reachAlong entries .upstream) where
  reached id := by simp [mem_reached_reachAlong_iff, Direction.senses]
  followed place := by simp [mem_followed_reachAlong_iff, Direction.senses]

end Splits

/-- What a restriction keeps, by places. -/
def selection (graph : Graph) (entries : List String) (direction : Direction) : Selection :=
  graph.kept (graph.reachAlong entries direction)

theorem restrict_eq_select {entries : List String} (nonempty : entries ≠ [])
    (direction : Direction) :
    graph.restrict entries direction = graph.select (graph.selection entries direction) :=
  (restrict_eq_keep nonempty direction).trans (keep_eq_select graph _)

section Marked

variable (graph) (first second entries : List String)

/-- Once the cycles are found, a restriction to several entries keeps what the restrictions to some
of them keep. -/
theorem selection_append (direction : Direction) :
    graph.markCycles.selection (first ++ second) direction =
      (graph.markCycles.selection first direction).union
        (graph.markCycles.selection second direction) :=
  kept_eq_union (markCycles_sound graph) (reachAlong_append _ first second direction)
    (reachAlong_coherent ..) (reachAlong_coherent ..) (reachAlong_coherent ..)

theorem selection_both :
    graph.markCycles.selection entries .both =
      (graph.markCycles.selection entries .downstream).union
        (graph.markCycles.selection entries .upstream) :=
  kept_eq_union (markCycles_sound graph) (reachAlong_both _ entries)
    (reachAlong_coherent ..) (reachAlong_coherent ..) (reachAlong_coherent ..)

end Marked

/-- The set of entries decides: their order and number do not. -/
theorem restrict_eq_of_mem_iff {entries others : List String}
    (same : ∀ id, id ∈ others ↔ id ∈ entries) (direction : Direction) :
    graph.restrict others direction = graph.restrict entries direction := by
  by_cases none : entries = []
  · have none' : others = [] := by
      refine List.eq_nil_iff_forall_not_mem.mpr fun id listed => ?_
      rw [same, none] at listed
      exact List.not_mem_nil listed
    rw [none, none']
  · have some' : others ≠ [] := by
      obtain ⟨id, listed⟩ := List.exists_mem_of_ne_nil entries none
      exact List.ne_nil_of_mem ((same id).mpr listed)
    exact restrict_congr none some' (fun id _ => same id) direction

end Wiring.Graph
