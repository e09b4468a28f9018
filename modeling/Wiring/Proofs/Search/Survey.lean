import Mathlib.Data.Fintype.Card
import Wiring.Graph.Cycles

/-! # Recursive search

The search for cycles as a recursion. Visiting a node follows its arcs one after the other; an arc
to a new node visits that node before the next arc is followed. The path is an argument of the
calls, so that coming back needs no bookkeeping, while colours and what was found are handed on
from call to call. No call makes a visited node unvisited, and every result carries this fact: with
it the recursion ends.
-/

namespace Wiring.Graph

/-- How far a search has come with a node. -/
inductive Colour where
  | unvisited
  | inProgress
  | done
deriving DecidableEq, Repr

/-- The colour that a mark stands for. -/
def Mark.colour : Mark → Colour
  | .unvisited => .unvisited
  | .onPath _ => .inProgress
  | .finished => .done

/-- What a recursive search knows: the colours of the nodes, and the cycles and circular edges in
the order in which they were found. -/
structure Survey (n : Nat) where
  colour : Fin n → Colour
  cycles : List (List (Fin n))
  circular : List Nat

namespace Survey

variable {n : Nat}

def start (n : Nat) : Survey n := ⟨fun _ => .unvisited, [], []⟩

def paint (survey : Survey n) (node : Fin n) (colour : Colour) : Survey n :=
  { survey with colour := Function.update survey.colour node colour }

theorem paint_colour (survey : Survey n) (node other : Fin n) (colour : Colour) :
    (survey.paint node colour).colour other =
      if other = node then colour else survey.colour other :=
  Function.update_apply ..

/-- Report an arc of `node` to a node in progress. The cycle is the path from there on; an arc from
the node to itself is circular without one. -/
def report (survey : Survey n) (path : List (Fin n)) (node : Fin n) (arc : Arc n) : Survey n :=
  { survey with
    circular := survey.circular ++ [arc.edge]
    cycles :=
      if arc.target = node then survey.cycles
      else survey.cycles ++ [path.dropWhile (· ≠ arc.target)] }

def unvisited (survey : Survey n) : Finset (Fin n) :=
  Finset.univ.filter fun node => survey.colour node = .unvisited

theorem unvisited_paint (survey : Survey n) (node : Fin n) (colour : Colour)
    (visited : colour ≠ .unvisited) :
    (survey.paint node colour).unvisited = survey.unvisited.erase node := by
  ext other
  simp only [unvisited, Finset.mem_filter_univ, Finset.mem_erase, paint_colour]
  split
  · rename_i same
    exact iff_of_false visited fun both => both.1 same
  · rename_i apart
    exact (and_iff_right apart).symm

theorem unvisited_paint_subset (survey : Survey n) (node : Fin n) (colour : Colour)
    (visited : colour ≠ .unvisited) :
    (survey.paint node colour).unvisited ⊆ survey.unvisited := by
  rw [unvisited_paint survey node colour visited]
  exact Finset.erase_subset node survey.unvisited

/-- A survey in which no node is unvisited again. -/
abbrev Later (survey : Survey n) := {later : Survey n // later.unvisited ⊆ survey.unvisited}

mutual

/-- Visit a new node at the end of a path: it is in progress while its arcs are followed, and done
after that. -/
def visit (outgoing : Fin n → List (Arc n)) (path : List (Fin n)) (node : Fin n)
    (survey : Survey n) (_fresh : survey.colour node = .unvisited) : survey.Later :=
  let inside := follow outgoing (path ++ [node]) node (outgoing node)
    (survey.paint node .inProgress)
  ⟨inside.val.paint node .done,
    (inside.val.unvisited_paint_subset node .done nofun).trans
      (inside.property.trans (survey.unvisited_paint_subset node .inProgress nofun))⟩
termination_by (survey.unvisited.card, 0)
decreasing_by
  refine .left _ _ ?_
  rw [unvisited_paint survey node .inProgress nofun]
  exact Finset.card_erase_lt_of_mem (Finset.mem_filter_univ node |>.mpr _fresh)

/-- Go along one arc of the node at the end of the path. -/
def along (outgoing : Fin n → List (Arc n)) (path : List (Fin n)) (node : Fin n) (arc : Arc n)
    (survey : Survey n) : survey.Later :=
  match colour : survey.colour arc.target with
  | .unvisited => visit outgoing path arc.target survey colour
  | .inProgress => ⟨survey.report path node arc, subset_rfl⟩
  | .done => ⟨survey, subset_rfl⟩
termination_by (survey.unvisited.card, 1)
decreasing_by exact .right _ Nat.zero_lt_one

/-- Follow arcs of the node at the end of the path, one after the other. -/
def follow (outgoing : Fin n → List (Arc n)) (path : List (Fin n)) (node : Fin n)
    (pending : List (Arc n)) (survey : Survey n) : survey.Later :=
  match pending with
  | [] => ⟨survey, subset_rfl⟩
  | arc :: pending =>
    let next := along outgoing path node arc survey
    let rest := follow outgoing path node pending next.val
    ⟨rest.val, rest.property.trans next.property⟩
termination_by (survey.unvisited.card, pending.length + 1)
decreasing_by
  · exact .right _ (Nat.succ_lt_succ (Nat.zero_lt_succ _))
  · rcases Nat.lt_or_eq_of_le (Finset.card_le_card next.property) with less | same
    · exact .left _ _ less
    · rw [same]
      exact .right _ (Nat.lt_succ_self _)

end

section Along

variable {outgoing : Fin n → List (Arc n)} {path : List (Fin n)} {node : Fin n} {arc : Arc n}
  {survey : Survey n}

theorem along_unvisited (fresh : survey.colour arc.target = .unvisited) :
    along outgoing path node arc survey = visit outgoing path arc.target survey fresh := by
  rw [along]
  grind

theorem along_inProgress (back : survey.colour arc.target = .inProgress) :
    (along outgoing path node arc survey).val = survey.report path node arc := by
  rw [along]
  grind

theorem along_done (done : survey.colour arc.target = .done) :
    (along outgoing path node arc survey).val = survey := by
  rw [along]
  grind

end Along

/-- Visit a root with nothing on the path, unless it was visited before. -/
def root (outgoing : Fin n → List (Arc n)) (survey : Survey n) (node : Fin n) : Survey n :=
  if fresh : survey.colour node = .unvisited then (visit outgoing [] node survey fresh).val
  else survey

def all (outgoing : Fin n → List (Arc n)) : Survey n :=
  (List.finRange n).foldl (root outgoing) (start n)

end Survey

/-- The edges that leave a node and lead to a node, in the order of the list of edges. -/
def outgoing (graph : Graph) (node : Fin graph.ids.length) : List (Arc graph.ids.length) :=
  graph.edges.zipIdx.filterMap fun (edge, place) =>
    if lastIndex? edge.source graph.ids = some node then
      (lastIndex? edge.target graph.ids).map fun target => ⟨place, target⟩
    else none

/-- The cycles and the circular edges that the recursive search finds. -/
def recursiveCircularity (graph : Graph) : Circularity :=
  let survey := Survey.all graph.outgoing
  { cycles := survey.cycles.map fun cycle => cycle.map graph.ids.get
    circular := survey.circular }

end Wiring.Graph
