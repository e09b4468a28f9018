import Wiring.Proofs.Reachability

/-! # Graphs along a line

Where names stand in a row and every edge leads onwards, nothing comes back. Where each name is
linked to the next one and no edge skips a name on its way onwards, any entry holds the whole graph
together: what stands after the entry is reached downstream, what stands before it upstream, and an
edge has its source on the one side or its target on the other.
-/

namespace Wiring.Graph

variable {graph : Graph} {names : Nat → String} {size entry i j : Nat}

section Rising

/-- Every edge leads onwards in a row of names. -/
def Rising (graph : Graph) (names : Nat → String) : Prop :=
  ∀ edge ∈ graph.edges, ∃ i j, i < j ∧ edge.source = names i ∧ edge.target = names j

/-- Every edge of a walk takes it onwards by one name at least. -/
theorem Rising.walk (rising : graph.Rising names) (injective : Function.Injective names)
    {start stop : String} {places : List Nat} (walk : graph.Walk start places stop) :
    ∀ i, start = names i → ∃ j, i + places.length ≤ j ∧ stop = names j := by
  induction walk with
  | nil id => exact fun i here => ⟨i, Nat.le_refl i, here⟩
  | @cons edge place places stop found rest ih =>
    intro i here
    obtain ⟨source, target, onwards, atSource, atTarget⟩ :=
      rising edge (List.mem_of_getElem? found)
    obtain rfl : i = source := injective (here.symm.trans atSource)
    obtain ⟨j, far, there⟩ := ih target atTarget
    refine ⟨j, ?_, there⟩
    rw [List.length_cons]
    omega

/-- What only leads onwards does not come back. -/
theorem Rising.acyclic (rising : graph.Rising names) (injective : Function.Injective names) :
    graph.Acyclic := by
  intro id places walk _
  cases walk with
  | nil => rfl
  | @cons edge place places _ found rest =>
    obtain ⟨i, _, _, atSource, _⟩ := rising edge (List.mem_of_getElem? found)
    obtain ⟨j, far, again⟩ := rising.walk injective (.cons found rest) i atSource
    have same : i = j := injective (atSource.symm.trans again)
    rw [List.length_cons] at far
    omega

/-- Marking the cycles of an acyclic graph lists none and marks nothing. -/
theorem Acyclic.markCycles_eq (acyclic : graph.Acyclic) :
    graph.markCycles = { graph with cycles := [] } := by
  have circular : graph.circularity.circular = [] :=
    (circular_eq_nil_iff_acyclic graph).mpr acyclic
  have cycles : graph.circularity.cycles = [] :=
    (cycles_eq_nil_iff graph).mpr fun cycle isCycle =>
      absurd isCycle (acyclic.not_isCycle cycle)
  rw [markCycles, withCircularity, circular, cycles]
  simp only [List.not_mem_nil, if_false]
  rw [List.zipIdx_map_fst]

end Rising

section Reaching

theorem Linked.follows_forward {source target : String} (linked : graph.Linked source target) :
    graph.Follows .forward source target := linked.2.2

/-- To follow edges backward is to come from where they lead forward. -/
theorem follows_backward_iff {source target : String} :
    graph.Follows .backward target source ↔ graph.Follows .forward source target :=
  exists_congr fun _ => and_congr_right fun _ => and_comm

/-- The nodes stand in a row, each is linked to the next one, and no edge leads further onwards than
to the next node. -/
structure InLine (graph : Graph) (names : Nat → String) (size : Nat) : Prop where
  ids : graph.ids = (List.range size).map names
  linked : ∀ i, i + 1 < size → graph.Linked (names i) (names (i + 1))
  near : ∀ edge ∈ graph.edges,
    ∃ i < size, ∃ j ≤ i + 1, edge.source = names i ∧ edge.target = names j

namespace InLine

theorem mem_ids (line : graph.InLine names size) (inside : entry < size) :
    names entry ∈ graph.ids := by
  rw [line.ids]
  exact List.mem_map_of_mem (List.mem_range.mpr inside)

/-- From an entry one gets to every later node. -/
theorem follows_forward (line : graph.InLine names size) (later : i ≤ j) (inside : j < size) :
    Relation.ReflTransGen (graph.Follows .forward) (names i) (names j) := by
  induction j, later using Nat.le_induction with
  | base => exact .refl
  | succ j _ ih => exact (ih (by omega)).tail (line.linked j inside).follows_forward

/-- Against the edges one gets from an entry to every earlier node. -/
theorem follows_backward (line : graph.InLine names size) (earlier : i ≤ j) (inside : j < size) :
    Relation.ReflTransGen (graph.Follows .backward) (names j) (names i) := by
  induction j, earlier using Nat.le_induction with
  | base => exact .refl
  | succ j _ ih =>
    have back := follows_backward_iff.mpr (line.linked j inside).follows_forward
    exact (ih (by omega)).head back

variable (line : graph.InLine names size) (inside : entry < size)
include line inside

private theorem accessible_forward (later : entry ≤ j) (inside' : j < size) :
    graph.Accessible .forward [names entry] (names j) :=
  ⟨names entry, List.mem_singleton_self _, line.mem_ids inside, line.follows_forward later inside'⟩

private theorem accessible_backward (earlier : i ≤ entry) :
    graph.Accessible .backward [names entry] (names i) :=
  ⟨names entry, List.mem_singleton_self _, line.mem_ids inside,
    line.follows_backward earlier inside⟩

/-- Every node is on one side of the entry. -/
theorem meets_node {id : String} (known : id ∈ graph.ids) :
    graph.meets [names entry] .both (fun _ => id) = true := by
  rw [line.ids] at known
  obtain ⟨i, member, rfl⟩ := List.mem_map.mp known
  rw [meets_iff]
  rcases Nat.le_total entry i with later | earlier
  · exact ⟨.forward, by decide, line.accessible_forward inside later (List.mem_range.mp member)⟩
  · exact ⟨.backward, by decide, line.accessible_backward inside earlier⟩

/-- An edge starts behind the entry or else does not lead past it. -/
theorem meets_edge {edge : Edge} (listed : edge ∈ graph.edges) :
    graph.meets [names entry] .both (Sense.tail · edge) = true := by
  obtain ⟨i, first, j, near, atSource, atTarget⟩ := line.near edge listed
  rw [meets_iff]
  rcases Nat.lt_or_ge i entry with before | after
  · refine ⟨.backward, by decide, ?_⟩
    change graph.Accessible .backward [names entry] edge.target
    rw [atTarget]
    apply line.accessible_backward inside
    omega
  · refine ⟨.forward, by decide, ?_⟩
    change graph.Accessible .forward [names entry] edge.source
    rw [atSource]
    exact line.accessible_forward inside after first

/-- Restricting a graph along a line, in both directions, to one of its nodes keeps all of it. -/
theorem restrict_both (sound : ∀ cycle ∈ graph.cycles, graph.IsCycle cycle) :
    graph.restrict [names entry] .both = graph := by
  have nodes : (graph.nodes.filter fun node => graph.meets [names entry] .both fun _ => node.id) =
      graph.nodes :=
    List.filter_eq_self.mpr fun node listed =>
      line.meets_node inside (List.mem_map_of_mem listed)
  have edges : (graph.edges.filter fun edge =>
      graph.meets [names entry] .both (Sense.tail · edge)) = graph.edges :=
    List.filter_eq_self.mpr fun _ listed => line.meets_edge inside listed
  have cycles : graph.cycles.filter (survives graph.ids
      (graph.edges.map fun edge => (edge.source, edge.target))) = graph.cycles := by
    refine List.filter_eq_self.mpr fun cycle listed => survives_iff.mpr ?_
    have isCycle := sound cycle listed
    refine ⟨isCycle.nonempty, fun id => isCycle.mem_ids, fun step member => ?_⟩
    obtain ⟨_, _, edge, listed', atSource, atTarget⟩ := isCycle.linked step member
    exact List.mem_map.mpr ⟨edge, listed', Prod.ext atSource atTarget⟩
  rw [restrict_eq_within (List.cons_ne_nil _ _), nodes, edges]
  exact congrArg (Graph.mk graph.nodes graph.edges) cycles

omit inside in
/-- Marking cycles moves no edge. -/
theorem markCycles : graph.markCycles.InLine names size where
  ids := line.ids
  linked i inside := (line.linked i inside).markCycles
  near edge listed := by
    obtain ⟨place, found⟩ := List.mem_iff_getElem?.mp listed
    obtain ⟨plain, there, source, target, _⟩ := exists_unmarked found
    obtain ⟨i, inside, j, near, atSource, atTarget⟩ :=
      line.near plain (List.mem_of_getElem? there)
    exact ⟨i, inside, j, near, source ▸ atSource, target ▸ atTarget⟩

theorem restrict_markCycles : graph.markCycles.restrict [names entry] .both = graph.markCycles :=
  line.markCycles.restrict_both inside (markCycles_sound graph)

end InLine

end Reaching

end Wiring.Graph
