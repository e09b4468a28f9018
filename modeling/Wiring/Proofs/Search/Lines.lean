import Wiring.Proofs.Search.Course

/-! # Lines of descent

The line of a node is the path on which it is entered, the node itself last. A node is entered
once, so that lines are fixed, and the line of every node on a line is the part of it up to there:
the lines make up a tree.
-/

namespace Wiring.Graph.Search

variable {n : Nat} {arcs : Arcs n} {node other : Fin n} {step : Nat}

/-- The path on which a node is entered. -/
def line (arcs : Arcs n) (node : Fin n) : List (Fin n) :=
  (moment arcs (entry arcs node)).path.toList

private theorem entry_eq_succ (before : (moment arcs step).marks.get node = .unvisited)
    (after : (moment arcs (step + 1)).marks.get node ≠ .unvisited) :
    entry arcs node = step + 1 := by
  have reached := entry_le_iff.mpr after
  have unreached := mt entry_le_iff.mp (not_not.mpr before)
  omega

/-- The path up to a node is the line of the node. -/
theorem path_take {position : Nat} (found : (moment arcs step).path.toList[position]? = some node) :
    (moment arcs step).path.toList.take (position + 1) = line arcs node := by
  induction step with
  | zero => nomatch found
  | succ step ih =>
    rcases moment_succ arcs step with same | move
    · rw [same] at found ⊢
      exact ih found
    have within := (List.getElem?_eq_some_iff.mp found).1
    have traced := (moment_reachable arcs (step + 1)).traced
    rcases move.path (moment_reachable arcs step).traced with
      ⟨⟨cut, whole⟩, _⟩ | ⟨new, unvisited, longer, _⟩
    · rw [← ih (by rw [← whole, List.getElem?_append_left within, found]), ← whole,
        List.take_append_of_le_length within]
    · rcases Nat.lt_or_ge position (moment arcs step).path.toList.length with earlier | last
      · rw [longer, List.take_append_of_le_length earlier]
        rw [longer, List.getElem?_append_left earlier] at found
        exact ih found
      · -- the node at the end is the one that was entered just now
        have same : new = node := by
          rw [longer, List.getElem?_append_right last] at found
          exact List.mem_singleton.mp (List.mem_of_getElem? found) |>.symm
        have visited : (moment arcs (step + 1)).marks.get node ≠ .unvisited := by
          rw [(traced.position node position).mpr found]
          nofun
        rw [List.take_of_length_le (by simp [longer]; omega), line,
          entry_eq_succ (same ▸ unvisited) visited]

/-- The path is the line of the node on top. -/
theorem path_eq_line {pending : List (Arc n)} {below : List (Frame n)}
    (stack : (moment arcs step).stack = ⟨node, pending⟩ :: below) :
    (moment arcs step).path.toList = line arcs node := by
  have path := (moment_reachable arcs step).traced.path_eq stack
  have last : (moment arcs step).path.toList[(below.map (·.node)).length]? = some node := by
    simp [path]
  rw [← path_take last, List.take_of_length_le (by simp [path])]

/-- Before a node is entered, its line lacks only the node itself. -/
theorem exists_before (arcs : Arcs n) (node : Fin n) :
    ∃ step, (moment arcs step).marks.get node = .unvisited ∧ entry arcs node = step + 1 ∧
      line arcs node = (moment arcs step).path.toList ++ [node] := by
  obtain ⟨step, first, unvisited, longer, _⟩ := exists_entry arcs node
  exact ⟨step, unvisited, first, by rw [line, first, longer]⟩

theorem getLast?_line (arcs : Arcs n) (node : Fin n) : (line arcs node).getLast? = some node := by
  obtain ⟨step, _, _, whole⟩ := exists_before arcs node
  rw [whole, List.getLast?_concat]

theorem mem_line_self (arcs : Arcs n) (node : Fin n) : node ∈ line arcs node :=
  List.mem_of_getLast? (getLast?_line arcs node)

/-- The line of a node on a line is the part of it up to the node. -/
theorem take_line {position : Nat} (found : (line arcs node)[position]? = some other) :
    (line arcs node).take (position + 1) = line arcs other :=
  path_take found

theorem line_initial (member : other ∈ line arcs node) : line arcs other <+: line arcs node := by
  obtain ⟨position, found⟩ := List.mem_iff_getElem?.mp member
  rw [← take_line found]
  exact List.take_prefix ..

/-- Along a line, lines grow longer. -/
theorem line_pairwise (arcs : Arcs n) (node : Fin n) :
    (line arcs node).Pairwise fun first second =>
      (line arcs first).length < (line arcs second).length := by
  rw [List.pairwise_iff_getElem]
  intro first second within within' order
  rw [← take_line (List.getElem?_eq_getElem within), ← take_line (List.getElem?_eq_getElem within')]
  simp
  omega

/-- A node with an arc pending has on its line the nodes on the path. -/
theorem mem_line_iff {pending : List (Arc n)} {below : List (Frame n)}
    (stack : (moment arcs step).stack = ⟨node, pending⟩ :: below) :
    other ∈ line arcs node ↔ ∃ position, (moment arcs step).marks.get other = .onPath position := by
  rw [← path_eq_line stack]
  exact (moment_reachable arcs step).traced.mem_path_iff

end Wiring.Graph.Search
