import Mathlib.Data.List.Nodup
import Wiring.Proofs.Search.Moves

/-! # The path of the search

The path is the stack read from its foot, and a mark tells the place of a node on the path. So no
node is on the path twice, and once the stack is empty every visited node is finished.
-/

namespace Wiring.Graph.Search

variable {n : Nat} {arcs : Arcs n} {search next : Search n}

/-- Stack, path and marks agree on which nodes are under way. -/
structure Traced (search : Search n) : Prop where
  path : search.path.toList = (search.stack.map (·.node)).reverse
  position : ∀ (node : Fin n) (position : Nat),
    search.marks.get node = .onPath position ↔ search.path.toList[position]? = some node

namespace Traced

theorem start : Traced (start n) where
  path := rfl
  position node position := by
    rw [start_mark]
    exact iff_of_false nofun nofun

theorem nodup (traced : Traced search) : search.path.toList.Nodup := by
  rw [List.nodup_iff_injective_getElem]
  intro first second same
  have here := (traced.position search.path.toList[first] first).mpr (List.getElem?_eq_getElem _)
  have there := (traced.position search.path.toList[first] second).mpr
    ((List.getElem?_eq_getElem second.isLt).trans (congrArg some same.symm))
  exact Fin.ext (Mark.onPath.inj (here.symm.trans there))

theorem stack_nodup (traced : Traced search) : (search.stack.map (·.node)).Nodup := by
  rw [← List.nodup_reverse, ← traced.path]
  exact traced.nodup

/-- The node on top of the stack is the last one on the path. -/
theorem path_eq (traced : Traced search) {node : Fin n} {pending : List (Arc n)}
    {below : List (Frame n)} (stack : search.stack = ⟨node, pending⟩ :: below) :
    search.path.toList = (below.map (·.node)).reverse ++ [node] := by
  rw [traced.path, stack, List.map_cons, List.reverse_cons]

theorem mem_path_iff (traced : Traced search) {node : Fin n} :
    node ∈ search.path.toList ↔ ∃ position, search.marks.get node = .onPath position := by
  rw [List.mem_iff_getElem?]
  exact exists_congr fun position => (traced.position node position).symm

theorem on_path (traced : Traced search) {frame : Frame n} (standing : frame ∈ search.stack) :
    ∃ position, search.marks.get frame.node = .onPath position := by
  rw [← traced.mem_path_iff, traced.path, List.mem_reverse]
  exact List.mem_map_of_mem standing

/-- The path from the position of a node on is what is left of it from the node on. -/
theorem drop_position (traced : Traced search) {node : Fin n} {position : Nat}
    (onPath : search.marks.get node = .onPath position) :
    search.path.toList.drop position = search.path.toList.dropWhile (· ≠ node) := by
  obtain ⟨within, rfl⟩ := List.getElem?_eq_some_iff.mp ((traced.position node position).mp onPath)
  -- a node stands on the path once, so its position is where the first search for it ends
  have first : search.path.toList.findIdx (· == search.path.toList[position]) = position :=
    traced.nodup.idxOf_getElem position within
  rw [List.dropWhile_eq_drop_findIdx_not]
  simp only [ne_eq, decide_not, Bool.not_not]
  exact congrArg search.path.toList.drop first.symm

theorem advance (traced : Traced search) {node : Fin n} {arc : Arc n} {pending : List (Arc n)}
    {below : List (Frame n)} (stack : search.stack = ⟨node, arc :: pending⟩ :: below) :
    Traced { search with stack := ⟨node, pending⟩ :: below } where
  path := by simpa [stack] using traced.path
  position := traced.position

theorem enter (traced : Traced search) {node : Fin n}
    (fresh : search.marks.get node = .unvisited) : Traced (search.enter arcs node) where
  path := by simp [Search.enter, traced.path]
  position other position := by
    have absent : search.path.toList[position]? ≠ some node := by
      intro found
      cases fresh.symm.trans ((traced.position node position).mpr found)
    have before := traced.position other position
    have longer : (search.enter arcs node).path.toList = search.path.toList ++ [node] := by
      simp [Search.enter]
    rw [enter_mark, longer, ← Array.length_toList, List.getElem?_append]
    split
    · rename_i same
      subst same
      grind
    · grind

theorem leave (traced : Traced search) {node : Fin n} {below : List (Frame n)}
    (stack : search.stack = ⟨node, []⟩ :: below) : Traced (search.leave node below) := by
  have path := traced.path_eq stack
  have shorter : (search.leave node below).path.toList = (below.map (·.node)).reverse := by
    simp [Search.leave, path]
  refine ⟨shorter, fun other position => ?_⟩
  have before := traced.position other position
  have last := traced.position node (below.map (·.node)).reverse.length
  rw [leave_mark, shorter]
  rw [path] at before last
  split
  · rename_i same
    subst same
    grind
  · grind

theorem move (traced : Traced search) (move : Move arcs search next) : Traced next := by
  cases move with
  | root idle fresh => exact traced.enter fresh
  | leave stack => exact traced.leave stack
  | descend stack fresh => exact (traced.advance stack).enter fresh
  | close stack back => exact ⟨(traced.advance stack).path, traced.position⟩
  | skip stack done => exact traced.advance stack

end Traced

theorem Reachable.traced (reachable : Reachable arcs search) : Traced search := by
  induction reachable with
  | start => exact .start
  | move _ move ih => exact ih.move move

/-- The search finishes every node. -/
theorem all_finished (arcs : Arcs n) (node : Fin n) : (all arcs).marks.get node = .finished := by
  have traced := (all_reachable arcs).traced
  cases mark : (all arcs).marks.get node with
  | unvisited => exact absurd mark (all_visited arcs node)
  | onPath position =>
    have found := (traced.position node position).mp mark
    simp [traced.path, all_idle arcs] at found
  | finished => rfl

end Wiring.Graph.Search
