import Wiring.Proofs.Reachability

/-! # Restricting in stages

From some entries a part of a graph looks like the whole graph if it has every edge that is entered
at a token they can get to. What a restriction keeps is such a part, for its own entries and for
all nodes that it keeps; in both directions at once it is one for its own entries, in each sense by
itself. So restricting again changes nothing, and restricting in stages is restricting once.
-/

namespace Wiring.Graph

variable {graph part : Graph} {sense : Sense} {direction : Direction} {entries others : List String}
  {id : String}

section Parts

private theorem survives_mono {ids moreIds : List String} {steps moreSteps : List (String × String)}
    {cycle : List String} (idsIn : ids ⊆ moreIds) (stepsIn : steps ⊆ moreSteps)
    (survived : survives ids steps cycle = true) : survives moreIds moreSteps cycle = true := by
  obtain ⟨nonempty, inside, along⟩ := survives_iff.mp survived
  exact survives_iff.mpr ⟨nonempty, fun id member => idsIn (inside id member),
    fun step member => stepsIn (along step member)⟩

theorem filter_filter_of_imp {α : Type} {items : List α} {fewer more : α → Bool}
    (imp : ∀ item, fewer item = true → more item = true) :
    (items.filter more).filter fewer = items.filter fewer := by
  rw [List.filter_filter]
  exact List.filter_congr fun item _ => Bool.and_eq_left_iff_imp.mpr (imp item)

/-- A smaller part of a part is the smaller part of the whole graph. -/
theorem within_within {node fewerNodes : Node → Bool} {edge fewerEdges : Edge → Bool}
    (nodes : ∀ item, fewerNodes item = true → node item = true)
    (edges : ∀ item, fewerEdges item = true → edge item = true) :
    (graph.within (graph.nodes.filter node) (graph.edges.filter edge)).within
        ((graph.nodes.filter node).filter fewerNodes)
        ((graph.edges.filter edge).filter fewerEdges) =
      graph.within (graph.nodes.filter fewerNodes) (graph.edges.filter fewerEdges) := by
  rw [filter_filter_of_imp nodes, filter_filter_of_imp edges]
  refine congrArg (Graph.mk _ _) (filter_filter_of_imp fun cycle => survives_mono ?_ ?_)
  · exact List.map_subset _ (List.monotone_filter_right _ nodes).subset
  · exact List.map_subset _ (List.monotone_filter_right _ edges).subset

end Parts

/-- What can be got to from tokens that can be got to can be got to at once. -/
theorem Accessible.trans
    (inside : ∀ entry ∈ others, entry ∈ graph.ids → graph.Accessible sense entries entry)
    (accessible : graph.Accessible sense others id) : graph.Accessible sense entries id := by
  obtain ⟨middle, isOther, known, onward⟩ := accessible
  obtain ⟨entry, isEntry, entryKnown, path⟩ := inside middle isOther known
  exact ⟨entry, isEntry, entryKnown, path.trans onward⟩

/-- A part of a graph that has every edge entered at a token the entries can get to, and those of
the entries that are nodes. -/
structure Covers (graph part : Graph) (sense : Sense) (entries : List String) : Prop where
  fewer : ∀ edge ∈ part.edges, edge ∈ graph.edges
  enough : ∀ edge ∈ graph.edges, graph.Accessible sense entries (sense.tail edge) →
    edge ∈ part.edges
  known : ∀ entry ∈ entries, entry ∈ part.ids ↔ entry ∈ graph.ids

/-- In such a part the entries get to what they get to in the whole graph. -/
theorem Covers.accessible_iff (covers : Covers graph part sense entries) :
    part.Accessible sense entries id ↔ graph.Accessible sense entries id := by
  constructor
  · rintro ⟨entry, isEntry, known, path⟩
    refine ⟨entry, isEntry, (covers.known entry isEntry).mp known, Relation.ReflTransGen.mono ?_ _ _ path⟩
    rintro _ _ ⟨edge, listed, rfl, rfl⟩
    exact ⟨edge, covers.fewer edge listed, rfl, rfl⟩
  · rintro ⟨entry, isEntry, known, path⟩
    refine ⟨entry, isEntry, (covers.known entry isEntry).mpr known, ?_⟩
    induction path with
    | refl => exact .refl
    | tail sofar step ih =>
      obtain ⟨edge, listed, rfl, rfl⟩ := step
      have entered := covers.enough edge listed ⟨entry, isEntry, known, sofar⟩
      exact ih.tail ⟨edge, entered, rfl, rfl⟩

section Restrict

variable (nonempty : entries ≠ [])
include nonempty

theorem mem_ids_restrict_iff :
    id ∈ (graph.restrict entries direction).ids ↔
      id ∈ graph.ids ∧ ∃ sense ∈ direction.senses, graph.Accessible sense entries id := by
  rw [restrict_eq_keep nonempty, mem_ids_keep_iff, mem_reached_reachAlong_iff]
  simp only [mem_reach_iff]

theorem mem_ids_restrict_direction_iff :
    id ∈ (graph.restrict entries sense.direction).ids ↔
      id ∈ graph.ids ∧ graph.Accessible sense entries id := by
  rw [mem_ids_restrict_iff nonempty, sense.senses_direction]
  simp only [List.mem_singleton, exists_eq_left]

theorem mem_edges_restrict_iff {edge : Edge} :
    edge ∈ (graph.restrict entries direction).edges ↔
      edge ∈ graph.edges ∧
        ∃ sense ∈ direction.senses, graph.Accessible sense entries (sense.tail edge) := by
  rw [restrict_eq_within nonempty, within, List.mem_filter, meets_iff]

/-- A restriction covers what its entries get to in each of its senses. -/
theorem restrict_covers (chosen : sense ∈ direction.senses)
    (inside : ∀ entry ∈ others, entry ∈ graph.ids → graph.Accessible sense entries entry) :
    Covers graph (graph.restrict entries direction) sense others where
  fewer edge listed := ((mem_edges_restrict_iff nonempty).mp listed).1
  enough edge listed accessible :=
    (mem_edges_restrict_iff nonempty).mpr ⟨listed, sense, chosen, accessible.trans inside⟩
  known entry isOther := by
    rw [mem_ids_restrict_iff nonempty, and_iff_left_iff_imp]
    intro known
    exact ⟨sense, chosen, inside entry isOther known⟩

/-- Restricting a restriction to entries that its own entries get to is restricting once. -/
theorem restrict_restrict (nonempty' : others ≠ [])
    (inside : ∀ sense ∈ direction.senses, ∀ entry ∈ others, entry ∈ graph.ids →
      graph.Accessible sense entries entry) :
    (graph.restrict entries direction).restrict others direction =
      graph.restrict others direction := by
  -- the part may lack edges between tokens it keeps, but none that one of its senses enters
  have meets : (graph.restrict entries direction).meets others direction =
      graph.meets others direction :=
    meets_congr fun sense chosen _ =>
      (restrict_covers nonempty chosen (inside sense chosen)).accessible_iff
  have covered (point : Sense → String) (met : graph.meets others direction point = true) :
      graph.meets entries direction point = true := by
    obtain ⟨sense, chosen, accessible⟩ := meets_iff.mp met
    exact meets_iff.mpr ⟨sense, chosen, accessible.trans (inside sense chosen)⟩
  rw [restrict_eq_within nonempty' direction, meets, restrict_eq_within nonempty,
    restrict_eq_within nonempty']
  exact within_within (fun node => covered _) fun edge => covered _

end Restrict

/-- Restricting again with the same entries changes nothing, in every direction. Restricting in one
direction and then, in the same direction, to nodes that were kept is restricting to these nodes
once. -/
theorem restrict_again (graph : Graph) (entries : List String) (nonempty : entries ≠ []) :
    (∀ direction, (graph.restrict entries direction).restrict entries direction =
      graph.restrict entries direction) ∧
    ∀ (sense : Sense) (others : List String), others ≠ [] →
      (∀ id ∈ others, id ∈ (graph.restrict entries sense.direction).ids) →
      (graph.restrict entries sense.direction).restrict others sense.direction =
        graph.restrict others sense.direction := by
  constructor
  · intro direction
    refine restrict_restrict nonempty nonempty ?_
    intro sense _ entry isEntry known
    exact ⟨entry, isEntry, known, .refl⟩
  · intro sense others nonempty' inside
    refine restrict_restrict nonempty nonempty' ?_
    intro other chosen entry isOther _
    rw [sense.senses_direction, List.mem_singleton] at chosen
    rw [chosen]
    exact ((mem_ids_restrict_direction_iff nonempty).mp (inside entry isOther)).2

/-- A chain of three nodes with an edge past the middle one. From the middle, both directions reach
every node and leave that edge out. -/
def shortcut : Graph where
  nodes := [⟨"Top", .component⟩, ⟨"Middle", .service⟩, ⟨"Bottom", .service⟩]
  edges := [⟨"Top", "Bottom", none, none⟩, ⟨"Top", "Middle", none, none⟩,
    ⟨"Middle", "Bottom", none, none⟩]
  cycles := []

theorem restrict_again_shortcut :
    ["Middle"] ≠ [] ∧
      (shortcut.restrict ["Middle"] .both).restrict ["Middle"] .both =
        shortcut.restrict ["Middle"] .both ∧
      (∀ id ∈ ["Bottom"], id ∈ (shortcut.restrict ["Middle"] .downstream).ids) ∧
      (shortcut.restrict ["Middle"] .downstream).restrict ["Bottom"] .downstream =
        shortcut.restrict ["Bottom"] .downstream := by
  obtain ⟨again, stages⟩ := restrict_again shortcut ["Middle"] (by decide)
  have kept : ∀ id ∈ ["Bottom"], id ∈ (shortcut.restrict ["Middle"] .downstream).ids := by
    have down : shortcut.Follows .forward "Middle" "Bottom" :=
      ⟨⟨"Middle", "Bottom", none, none⟩, by decide, rfl, rfl⟩
    have there : shortcut.Accessible .forward ["Middle"] "Bottom" :=
      ⟨"Middle", by decide, by decide, .single down⟩
    refine List.forall_mem_singleton.mpr ?_
    exact (mem_ids_restrict_direction_iff (by decide)).mpr ⟨by decide, there⟩
  exact ⟨by decide, again .both, kept, stages .forward ["Bottom"] (by decide) kept⟩

end Wiring.Graph
