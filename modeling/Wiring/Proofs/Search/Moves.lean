import Wiring.Graph.Cycles

/-! # The moves of the search

The loop over the stack and the loop over the roots make the same few moves. Whatever every move
preserves therefore holds of every state that the search goes through, and of the one it ends in.
The search ends with nothing on the stack and with every node visited.
-/

namespace Wiring.Graph.Search

variable {n : Nat} {arcs : Arcs n} {search next : Search n}

theorem start_mark (node : Fin n) : (start n).marks.get node = .unvisited := by
  change (Vector.replicate n Mark.unvisited)[node.val] = .unvisited
  rw [Vector.getElem_replicate]

theorem get_set_mark (marks : Vector Mark n) (node other : Fin n) (mark : Mark) :
    (marks.set node mark node.isLt).get other = if node = other then mark else marks.get other := by
  change (marks.set node mark node.isLt)[other.val] =
    if node = other then mark else marks[other.val]
  simp only [Vector.getElem_set, Fin.val_inj]

theorem enter_mark (search : Search n) (node other : Fin n) :
    (search.enter arcs node).marks.get other =
      if node = other then .onPath search.path.size else search.marks.get other :=
  get_set_mark ..

theorem leave_mark (search : Search n) (node other : Fin n) (below : List (Frame n)) :
    (search.leave node below).marks.get other =
      if node = other then .finished else search.marks.get other :=
  get_set_mark ..

/-- What can happen to a search. A root is entered when the stack is empty. Otherwise the node on
top is left if no arc of it is pending; if one is, it leads to a new node, back onto the path, or
to a finished node. -/
inductive Move (arcs : Arcs n) (search : Search n) : Search n → Prop
  | root {root : Fin n} (idle : search.stack = []) (fresh : search.marks.get root = .unvisited) :
      Move arcs search (search.enter arcs root)
  | leave {node : Fin n} {below : List (Frame n)} (stack : search.stack = ⟨node, []⟩ :: below) :
      Move arcs search (search.leave node below)
  | descend {node : Fin n} {arc : Arc n} {pending : List (Arc n)} {below : List (Frame n)}
      (stack : search.stack = ⟨node, arc :: pending⟩ :: below)
      (fresh : search.marks.get arc.target = .unvisited) :
      Move arcs search ({ search with stack := ⟨node, pending⟩ :: below }.enter arcs arc.target)
  | close {node : Fin n} {arc : Arc n} {pending : List (Arc n)} {below : List (Frame n)}
      {position : Nat} (stack : search.stack = ⟨node, arc :: pending⟩ :: below)
      (back : search.marks.get arc.target = .onPath position) :
      Move arcs search ({ search with stack := ⟨node, pending⟩ :: below }.close node arc position)
  | skip {node : Fin n} {arc : Arc n} {pending : List (Arc n)} {below : List (Frame n)}
      (stack : search.stack = ⟨node, arc :: pending⟩ :: below)
      (done : search.marks.get arc.target = .finished) :
      Move arcs search { search with stack := ⟨node, pending⟩ :: below }

/-- A step of the loop over the stack is a move. -/
theorem step_move {top : Frame n} {below : List (Frame n)} (stack : search.stack = top :: below) :
    Move arcs search (search.step arcs top below) := by
  rcases top with ⟨node, pending⟩
  cases pending with
  | nil => exact .leave stack
  | cons arc pending =>
    simp only [step, examine]
    split
    · rename_i fresh
      exact .descend stack fresh
    · rename_i back
      exact .close stack back
    · rename_i done
      exact .skip stack done

theorem run_eq_self (idle : search.stack = []) : search.run arcs = search := by
  rw [run]
  split
  · rfl
  · rename_i top below stack
    exact absurd (stack.symm.trans idle) (List.cons_ne_nil _ _)

theorem run_eq_step {top : Frame n} {below : List (Frame n)} (stack : search.stack = top :: below) :
    search.run arcs = (search.step arcs top below).run arcs := by
  rw [run]
  split
  · rename_i empty
    exact absurd (stack.symm.trans empty) (List.cons_ne_nil _ _)
  · rename_i other rest stack'
    obtain ⟨rfl, rfl⟩ := List.cons.inj (stack'.symm.trans stack)
    rfl

/-- The loop over the stack ends with nothing on it. -/
theorem run_idle (search : Search n) : (search.run arcs).stack = [] := by
  fun_induction run arcs search with
  | case1 search empty => exact empty
  | case2 search top below stack ih => exact ih

theorem visit_idle (idle : search.stack = []) (root : Fin n) :
    (search.visit arcs root).stack = [] := by
  unfold visit
  split
  · exact run_idle _
  · exact idle

theorem visits_idle (roots : List (Fin n)) (idle : search.stack = []) :
    (roots.foldl (visit arcs) search).stack = [] := by
  induction roots generalizing search with
  | nil => exact idle
  | cons root roots ih => exact ih (visit_idle idle root)

section Preserves

variable {Kept : Search n → Prop}
  (kept : ∀ {search next : Search n}, Move arcs search next → Kept search → Kept next)
include kept

/-- What every move preserves, the loop over the stack preserves. -/
theorem run_preserves (initial : Kept search) : Kept (search.run arcs) := by
  fun_induction run arcs search with
  | case1 search empty => exact initial
  | case2 search top below stack ih => exact ih (kept (step_move stack) initial)

theorem visit_preserves (idle : search.stack = []) (initial : Kept search) (root : Fin n) :
    Kept (search.visit arcs root) := by
  unfold visit
  split
  · rename_i fresh
    exact run_preserves kept (kept (.root idle fresh) initial)
  · exact initial

/-- What every move preserves, the loop over the roots preserves. -/
theorem visits_preserve (roots : List (Fin n)) (idle : search.stack = []) (initial : Kept search) :
    Kept (roots.foldl (visit arcs) search) := by
  induction roots generalizing search with
  | nil => exact initial
  | cons root roots ih => exact ih (visit_idle idle root) (visit_preserves kept idle initial root)

end Preserves

/-- The states that the search goes through. -/
inductive Reachable (arcs : Arcs n) : Search n → Prop
  | start : Reachable arcs (start n)
  | move {search next : Search n} (sofar : Reachable arcs search) (move : Move arcs search next) :
      Reachable arcs next

/-- The search ends in a state that it goes through. -/
theorem all_reachable (arcs : Arcs n) : Reachable arcs (all arcs) :=
  visits_preserve (fun move sofar => .move sofar move) _ rfl .start

theorem all_idle (arcs : Arcs n) : (all arcs).stack = [] := visits_idle _ rfl

/-- A visited node stays visited. -/
theorem Move.visited (move : Move arcs search next) {node : Fin n}
    (visited : search.marks.get node ≠ .unvisited) : next.marks.get node ≠ .unvisited := by
  cases move with
  | root idle fresh =>
    rw [enter_mark]
    split
    · nofun
    · exact visited
  | leave stack =>
    rw [leave_mark]
    split
    · nofun
    · exact visited
  | descend stack fresh =>
    rw [enter_mark]
    split
    · nofun
    · exact visited
  | close stack back => exact visited
  | skip stack done => exact visited

theorem visit_visited (search : Search n) (root : Fin n) :
    (search.visit arcs root).marks.get root ≠ .unvisited := by
  unfold visit
  split
  · have entered : (search.enter arcs root).marks.get root ≠ .unvisited := by
      rw [enter_mark, if_pos rfl]
      nofun
    exact run_preserves (fun move visited => move.visited visited) entered
  · assumption

theorem visits_visited (roots : List (Fin n)) (idle : search.stack = []) {node : Fin n}
    (listed : node ∈ roots) : (roots.foldl (visit arcs) search).marks.get node ≠ .unvisited := by
  induction roots generalizing search with
  | nil => simp at listed
  | cons root roots ih =>
    rcases List.mem_cons.mp listed with rfl | listed
    · exact visits_preserve (fun move visited => move.visited visited) roots
        (visit_idle idle node) (visit_visited search node)
    · exact ih (visit_idle idle root) listed

/-- The search visits every node. -/
theorem all_visited (arcs : Arcs n) (node : Fin n) : (all arcs).marks.get node ≠ .unvisited :=
  visits_visited _ rfl (List.mem_finRange node)

end Wiring.Graph.Search
