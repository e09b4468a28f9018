import Wiring.Graph.Basic

/-! # Circular dependencies

A depth-first search over nodes and edges in list order. A node is unvisited, on the current path,
or finished. An edge that leads back onto the path is circular, and the path from its target on is
a cycle, unless the edge is a loop. The search is a machine with an explicit stack: each step either
finishes the node on top or examines its next edge, so it ends.
-/

namespace Wiring.Graph

/-- An edge between two nodes, seen from its source: its place in the list of edges and the node
it leads to. -/
structure Arc (n : Nat) where
  edge : Nat
  target : Fin n
deriving DecidableEq, Repr

/-- How far the search has come with a node. -/
inductive Mark where
  | unvisited
  | onPath (position : Nat)
  | finished
deriving DecidableEq, Repr

/-- A node on the stack with its arcs still to be examined. -/
structure Frame (n : Nat) where
  node : Fin n
  pending : List (Arc n)
deriving DecidableEq, Repr

/-- The state of the search. The stack has its top first, the path its start first; cycles and
circular edges stand in the order in which they were found. -/
structure Search (n : Nat) where
  marks : Vector Mark n
  stack : List (Frame n)
  path : Array (Fin n)
  cycles : Array (List (Fin n))
  circular : Array Nat

/-- The arcs that leave each node. -/
abbrev Arcs (n : Nat) := Vector (List (Arc n)) n

namespace Search

variable {n : Nat}

def start (n : Nat) : Search n where
  marks := Vector.replicate n .unvisited
  stack := []
  path := #[]
  cycles := #[]
  circular := #[]

/-- Put a node on the path and on the stack. -/
def enter (arcs : Arcs n) (search : Search n) (node : Fin n) : Search n :=
  { search with
    marks := search.marks.set node (.onPath search.path.size)
    stack := ⟨node, arcs.get node⟩ :: search.stack
    path := search.path.push node }

/-- Take the node on top off the path and off the stack `below` it. -/
def leave (search : Search n) (node : Fin n) (below : List (Frame n)) : Search n :=
  { search with
    marks := search.marks.set node .finished
    stack := below
    path := search.path.pop }

/-- Record an arc of `node` that leads back onto the path at a position. -/
def close (search : Search n) (node : Fin n) (arc : Arc n) (position : Nat) : Search n :=
  { search with
    circular := search.circular.push arc.edge
    cycles :=
      if arc.target = node then search.cycles
      else search.cycles.push (search.path.toList.drop position) }

def examine (arcs : Arcs n) (search : Search n) (node : Fin n) (arc : Arc n) : Search n :=
  match search.marks.get arc.target with
  | .unvisited => search.enter arcs arc.target
  | .onPath position => search.close node arc position
  | .finished => search

/-- One step of the search, for a stack with a top. -/
def step (arcs : Arcs n) (search : Search n) (top : Frame n) (below : List (Frame n)) : Search n :=
  match top.pending with
  | [] => search.leave top.node below
  | arc :: pending =>
    examine arcs { search with stack := ⟨top.node, pending⟩ :: below } top.node arc

def unvisited (search : Search n) : Nat := search.marks.count .unvisited

/-- The number of steps that the stack alone gives rise to. -/
def work (search : Search n) : Nat :=
  search.stack.foldr (fun frame steps => frame.pending.length + 1 + steps) 0

theorem count_set_le (marks : Vector Mark n) (node : Fin n) {mark : Mark}
    (visited : mark ≠ .unvisited) :
    (marks.set node mark).count .unvisited ≤ marks.count .unvisited := by
  simp [Vector.count_set, visited]

theorem count_set_lt (marks : Vector Mark n) (node : Fin n) {mark : Mark}
    (visited : mark ≠ .unvisited) (fresh : marks.get node = .unvisited) :
    (marks.set node mark).count .unvisited < marks.count .unvisited := by
  have positive : 0 < marks.count .unvisited :=
    Vector.count_pos_iff.mpr (fresh ▸ Vector.getElem_mem node.isLt)
  have same : marks[node.val] = .unvisited := fresh
  simp only [Vector.count_set, same, beq_self_eq_true, if_true, beq_iff_eq, visited, if_false]
  omega

/-- A step visits a new node, or leaves less work on the stack. -/
theorem step_decreases (arcs : Arcs n) (search : Search n) (top : Frame n)
    (below : List (Frame n)) (stack : search.stack = top :: below) :
    Prod.Lex (· < ·) (· < ·)
      ((search.step arcs top below).unvisited, (search.step arcs top below).work)
      (search.unvisited, search.work) := by
  rcases top with ⟨node, pending⟩
  cases pending with
  | nil =>
    have visited : Mark.finished ≠ .unvisited := nofun
    rcases Nat.lt_or_eq_of_le (count_set_le search.marks node visited) with less | same
    · exact .left _ _ less
    · have kept : (search.step arcs ⟨node, []⟩ below).unvisited = search.unvisited := same
      rw [kept]
      refine .right _ ?_
      simp [step, leave, work, stack]
  | cons arc pending =>
    simp only [step, examine]
    split
    · rename_i fresh
      exact .left _ _ (count_set_lt search.marks arc.target nofun fresh)
    · refine .right _ ?_
      simp [close, work, stack]
    · refine .right _ ?_
      simp [work, stack]

/-- Step until the stack is empty. -/
def run (arcs : Arcs n) (search : Search n) : Search n :=
  match _top : search.stack with
  | [] => search
  | top :: below => run arcs (search.step arcs top below)
termination_by (search.unvisited, search.work)
decreasing_by exact step_decreases arcs search top below _top

/-- Search from a root, unless it was visited before. -/
def visit (arcs : Arcs n) (search : Search n) (root : Fin n) : Search n :=
  if search.marks.get root = .unvisited then (search.enter arcs root).run arcs else search

/-- Search from every node in order. -/
def all (arcs : Arcs n) : Search n := (List.finRange n).foldl (visit arcs) (start n)

end Search

/-- The place of the last of equal ids. -/
def lastIndex? (id : String) : (ids : List String) → Option (Fin ids.length)
  | [] => none
  | head :: rest =>
    match lastIndex? id rest with
    | some index => some index.succ
    | none => if head = id then some ⟨0, Nat.zero_lt_succ _⟩ else none

/-- The edges between known nodes, each with the node it starts at, in order. An id that several
nodes have stands for the last of them. -/
def links (ids : List String) (edges : List Edge) : List (Fin ids.length × Arc ids.length) :=
  edges.zipIdx.filterMap fun (edge, place) => do
    let source ← lastIndex? edge.source ids
    let target ← lastIndex? edge.target ids
    return (source, ⟨place, target⟩)

/-- The arcs that leave each node, in the order of the edges. -/
def arcsOf {n : Nat} (links : List (Fin n × Arc n)) : Arcs n :=
  Vector.ofFn fun node => links.filterMap fun link => if link.1 = node then some link.2 else none

/-- The cycles of a graph and the places of its circular edges, in the order of the search. -/
structure Circularity where
  cycles : List (List String)
  circular : List Nat
deriving DecidableEq, Repr

def circularity (graph : Graph) : Circularity :=
  let ids := graph.ids
  let search := Search.all (arcsOf (links ids graph.edges))
  { cycles := search.cycles.toList.map fun cycle => cycle.map ids.get
    circular := search.circular.toList }

/-- A graph with the cycles that were found listed and its circular edges marked. Other edges stay
as they are. -/
def withCircularity (graph : Graph) (found : Circularity) : Graph where
  nodes := graph.nodes
  edges := graph.edges.zipIdx.map fun (edge, place) =>
    if place ∈ found.circular then { edge with circular := some true } else edge
  cycles := found.cycles

/-- List the cycles of a graph, and mark its circular edges. -/
def markCycles (graph : Graph) : Graph := graph.withCircularity graph.circularity

end Wiring.Graph
