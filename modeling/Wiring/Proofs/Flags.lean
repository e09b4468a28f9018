import Wiring.Assembly
import Wiring.Proofs.Reachability

/-! # Flags have no influence

Nothing looks at the flags of an edge. So taking all flags off a graph commutes with finding its
cycles and with restricting it, and assembling without flags is assembling with them and taking them
off. Where flags are shown, at least one of them is asserted.
-/

namespace Wiring

def Edge.withoutFlags (edge : Edge) : Edge := { edge with flags := none }

@[simp] theorem Sense.tail_withoutFlags (sense : Sense) (edge : Edge) :
    sense.tail edge.withoutFlags = sense.tail edge := by
  cases sense <;> rfl

@[simp] theorem Sense.head_withoutFlags (sense : Sense) (edge : Edge) :
    sense.head edge.withoutFlags = sense.head edge := by
  cases sense <;> rfl

namespace Graph

def withoutFlags (graph : Graph) : Graph :=
  { graph with edges := graph.edges.map Edge.withoutFlags }

variable (graph : Graph)

@[simp] theorem withoutFlags_withoutFlags :
    graph.withoutFlags.withoutFlags = graph.withoutFlags := by
  simp only [withoutFlags, List.map_map]
  rfl

section Cycles

private theorem links_withoutFlags (ids : List String) (edges : List Edge) :
    links ids (edges.map Edge.withoutFlags) = links ids edges := by
  simp only [links, List.zipIdx_map, List.filterMap_map]
  rfl

theorem circularity_withoutFlags : graph.withoutFlags.circularity = graph.circularity := by
  simp only [circularity, withoutFlags, links_withoutFlags]
  rfl

theorem markCycles_withoutFlags :
    graph.withoutFlags.markCycles = graph.markCycles.withoutFlags := by
  rw [markCycles, circularity_withoutFlags, markCycles]
  simp only [withCircularity, withoutFlags, List.zipIdx_map, List.map_map, mk.injEq, true_and,
    and_true]
  refine List.map_congr_left ?_
  rintro ⟨edge, place⟩ _
  -- marking changes a field that taking off flags leaves alone
  simp only [Function.comp_apply, Prod.map_apply, id_eq]
  split <;> rfl

end Cycles

section Restriction

private theorem follows_withoutFlags (sense : Sense) :
    graph.withoutFlags.Follows sense = graph.Follows sense := by
  funext first second
  simp [Follows, withoutFlags]

private theorem meets_withoutFlags (entries : List String) (direction : Direction) :
    graph.withoutFlags.meets entries direction = graph.meets entries direction := by
  refine meets_congr fun sense _ id => ?_
  rw [Accessible, Accessible, follows_withoutFlags]
  rfl

private theorem within_withoutFlags (nodes : List Node) (edges : List Edge) :
    graph.withoutFlags.within nodes (edges.map Edge.withoutFlags) =
      (graph.within nodes edges).withoutFlags := by
  simp only [within, withoutFlags, List.map_map]
  rfl

theorem restrict_withoutFlags (entries : List String) (direction : Direction) :
    graph.withoutFlags.restrict entries direction =
      (graph.restrict entries direction).withoutFlags := by
  by_cases none : entries = []
  · subst none
    rfl
  · have edges : (graph.withoutFlags.edges.filter fun edge =>
        graph.meets entries direction (Sense.tail · edge)) =
        (graph.edges.filter fun edge =>
          graph.meets entries direction (Sense.tail · edge)).map Edge.withoutFlags := by
      simp only [withoutFlags, List.filter_map, Function.comp_def, Sense.tail_withoutFlags]
    rw [restrict_eq_within none, restrict_eq_within none, meets_withoutFlags, edges,
      within_withoutFlags]
    rfl

end Restriction

section Asserted

variable {graph}

/-- Where an edge shows flags, one of them is asserted. -/
def FlagsAsserted (graph : Graph) : Prop := ∀ edge ∈ graph.edges, edge.flags ≠ some .unset

theorem FlagsAsserted.markCycles (asserted : graph.FlagsAsserted) :
    graph.markCycles.FlagsAsserted := by
  intro edge listed
  obtain ⟨place, found⟩ := List.mem_iff_getElem?.mp listed
  rw [getElem?_markCycles, Option.map_eq_some_iff] at found
  obtain ⟨plain, found, rfl⟩ := found
  have shown := asserted plain (List.mem_of_getElem? found)
  split <;> exact shown

theorem FlagsAsserted.restrict (asserted : graph.FlagsAsserted) (entries : List String)
    (direction : Direction) : (graph.restrict entries direction).FlagsAsserted := by
  by_cases none : entries = []
  · subst none
    exact asserted
  · rw [restrict_eq_within none]
    exact fun edge listed => asserted edge (List.mem_filter.mp listed).1

end Asserted

end Graph

namespace Assembly

/-- Leaving out flags changes the edges alone, and only their flags. -/
theorem collect_withoutFlags (position : Nat) (seen : List String)
    (classes : List Resolved.Class) :
    collect false position seen classes =
      ((collect true position seen classes).1,
        (collect true position seen classes).2.1.map Edge.withoutFlags,
        (collect true position seen classes).2.2) := by
  fun_induction collect true position seen classes with
  | case1 position seen => rfl
  | case2 position seen resolved rest unnamed nodes edges notes equal ih =>
    rw [equal] at ih
    simp only [collect, unnamed, ih]
  | case3 position seen resolved rest name named again nodes edges notes equal ih =>
    rw [equal] at ih
    simp only [collect, named, again, if_true, ih]
  | case4 position seen resolved rest name named isNew nodes edges notes equal ih =>
    rw [equal] at ih
    simp only [collect, named, isNew, if_false, ih, List.map_append, edgesOf, List.map_map]
    rfl

theorem assemble_withoutFlags (classes : List Resolved.Class) :
    (assemble false classes).value = (assemble true classes).value.withoutFlags := by
  simp only [assemble, collect_withoutFlags 1 [] classes]
  rfl

private theorem collect_flagsAsserted (includeFlags : Bool) (position : Nat) (seen : List String)
    (classes : List Resolved.Class) :
    ∀ edge ∈ (collect includeFlags position seen classes).2.1, edge.flags ≠ some .unset := by
  fun_induction collect includeFlags position seen classes with
  | case1 position seen => exact nofun
  | case2 position seen resolved rest unnamed nodes edges notes equal ih =>
    rw [equal] at ih
    exact ih
  | case3 position seen resolved rest name named again nodes edges notes equal ih =>
    rw [equal] at ih
    exact ih
  | case4 position seen resolved rest name named isNew nodes edges notes equal ih =>
    rw [equal] at ih
    intro edge listed
    rcases List.mem_append.mp listed with own | later
    · obtain ⟨dependency, _, rfl⟩ := List.mem_map.mp own
      cases includeFlags with
      | false => exact nofun
      | true =>
        intro shown
        nomatch (Option.filter_eq_some_iff.mp shown).2
    · exact ih edge later

theorem assemble_flagsAsserted (includeFlags : Bool) (classes : List Resolved.Class) :
    (assemble includeFlags classes).value.FlagsAsserted :=
  collect_flagsAsserted includeFlags 1 [] classes

end Assembly

end Wiring
