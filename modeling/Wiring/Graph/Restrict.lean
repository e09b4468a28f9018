import Wiring.Graph.Reach

/-! # Sub-graphs from entries

A graph is restricted to what some entries reach: downstream along the edges, upstream against
them, or both, each from the same entries. Nodes and edges keep their order, and a cycle is kept
if all its nodes and all its edges are.
-/

namespace Wiring

/-- The way in which a sub-graph grows from its entries. Any word that names none of the three
directions grows like `upstream`. -/
inductive Direction where
  | downstream
  | upstream
  | both
  | named (word : String)
deriving DecidableEq, Repr

namespace Direction

def word : Direction → String
  | downstream => "downstream"
  | upstream => "upstream"
  | both => "both"
  | named word => word

def ofWord (word : String) : Direction :=
  if word = "downstream" then downstream
  else if word = "upstream" then upstream
  else if word = "both" then both
  else named word

/-- The senses in which edges are followed. -/
def senses : Direction → List Sense
  | downstream => [.forward]
  | both => [.forward, .backward]
  | upstream | named _ => [.backward]

end Direction

namespace Graph

/-- The steps of a cycle, the one from its last id back to its first included. -/
def cycleSteps (cycle : List String) : List (String × String) :=
  cycle.zip (cycle.drop 1 ++ cycle.take 1)

/-- Whether a cycle has all its ids among `ids` and all its steps among `steps`. -/
def survives (ids : List String) (steps : List (String × String)) (cycle : List String) : Bool :=
  !cycle.isEmpty && cycle.all ids.contains && (cycleSteps cycle).all steps.contains

def reachAlong (graph : Graph) (entries : List String) (direction : Direction) : Reach :=
  (direction.senses.map fun sense => graph.reach sense entries).foldl .union .nothing

/-- The part of a graph that a reach holds. -/
def keep (graph : Graph) (reach : Reach) : Graph :=
  let nodes := graph.nodes.filter fun node => reach.reached.contains node.id
  let edges := (graph.edges.zipIdx.filter fun edge => reach.followed.contains edge.2).map (·.1)
  let ids := nodes.map (·.id)
  let steps := edges.map fun edge => (edge.source, edge.target)
  { nodes := nodes
    edges := edges
    cycles := graph.cycles.filter (survives ids steps) }

/-- The sub-graph that the entries reach in a direction; without entries, the whole graph. -/
def restrict (graph : Graph) (entries : List String) (direction : Direction) : Graph :=
  if entries.isEmpty then graph else graph.keep (graph.reachAlong entries direction)

end Graph

end Wiring
