import Wiring.Assembly
import Wiring.Proofs.Consistency

/-! # What assembling gives

One pass collects nodes and edges. Since it goes by the names seen before, what it collects is
stated for every such list of names: the new node ids are none of them.
-/

namespace Wiring.Assembly

private theorem name?_ne_empty {resolved : Resolved.Class} {name : String}
    (named : name? resolved = some name) : name ≠ "" := by
  obtain ⟨written, _, kept⟩ := Option.bind_eq_some_iff.mp named
  unfold Text.nonBlank? at kept
  split at kept
  · nomatch kept
  · rename_i nonBlank
    exact Option.some.inj kept ▸ nonBlank

/-- Node ids are non-empty, none of the names seen before and different from each other; edges start
at nodes and carry no mark. -/
structure Collected (seen : List String) (nodes : List Node) (edges : List Edge) : Prop where
  fresh : ∀ node ∈ nodes, node.id ∉ seen
  named : ∀ node ∈ nodes, node.id ≠ ""
  nodup : (nodes.map (·.id)).Nodup
  sources : ∀ edge ∈ edges, edge.source ∈ nodes.map (·.id)
  unmarked : ∀ edge ∈ edges, edge.circular = none

theorem Collected.nil (seen : List String) : Collected seen [] [] :=
  ⟨nofun, nofun, .nil, nofun, nofun⟩

/-- A class with a new name adds a node, and its edges. -/
theorem Collected.cons {seen : List String} {nodes : List Node} {edges : List Edge} {name : String}
    (rest : Collected (name :: seen) nodes edges) (resolved : Resolved.Class) (includeFlags : Bool)
    (isNew : name ∉ seen) (nonempty : name ≠ "") :
    Collected seen (⟨name, resolved.kind⟩ :: nodes)
      (edgesOf includeFlags name resolved ++ edges) where
  fresh node listed := by
    rcases List.mem_cons.mp listed with rfl | listed
    · exact isNew
    · exact fun before => rest.fresh node listed (List.mem_cons_of_mem _ before)
  named node listed := by
    rcases List.mem_cons.mp listed with rfl | listed
    · exact nonempty
    · exact rest.named node listed
  nodup := by
    refine List.nodup_cons.mpr ⟨?_, rest.nodup⟩
    intro again
    obtain ⟨node, listed, same⟩ := List.mem_map.mp again
    exact rest.fresh node listed (same ▸ List.mem_cons_self ..)
  sources edge listed := by
    rcases List.mem_append.mp listed with own | later
    · obtain ⟨dependency, _, rfl⟩ := List.mem_map.mp own
      exact List.mem_cons_self ..
    · exact List.mem_cons_of_mem _ (rest.sources edge later)
  unmarked edge listed := by
    rcases List.mem_append.mp listed with own | later
    · obtain ⟨dependency, _, rfl⟩ := List.mem_map.mp own
      rfl
    · exact rest.unmarked edge later

theorem collect_collected (includeFlags : Bool) (position : Nat) (seen : List String)
    (classes : List Resolved.Class) :
    Collected seen (collect includeFlags position seen classes).1
      (collect includeFlags position seen classes).2.1 := by
  fun_induction collect includeFlags position seen classes with
  | case1 position seen => exact .nil seen
  | case2 position seen resolved rest unnamed nodes edges notes equal ih =>
    rw [equal] at ih
    exact ih
  | case3 position seen resolved rest name named again nodes edges notes equal ih =>
    rw [equal] at ih
    exact ih
  | case4 position seen resolved rest name named isNew nodes edges notes equal ih =>
    rw [equal] at ih
    exact ih.cons resolved includeFlags isNew (name?_ne_empty named)

theorem assemble_assembled (includeFlags : Bool) (classes : List Resolved.Class) :
    (assemble includeFlags classes).value.Assembled := by
  have collected := collect_collected includeFlags 1 [] classes
  refine ⟨collected.nodup, ?_, collected.sources, collected.unmarked⟩
  intro id listed
  obtain ⟨node, member, rfl⟩ := List.mem_map.mp listed
  exact collected.named node member

end Wiring.Assembly
