import Wiring.Graph.Flags

/-! # Dependency graphs

A node stands for a class, and an edge for one constructor dependency of the class it starts at.
The target of an edge is a token, which need not be a node. Nodes and edges stay in the order of
their discovery.
-/

namespace Wiring

/-- What a class is to the framework. -/
inductive NodeKind where
  | service
  | component
  | directive
  | unknown
deriving DecidableEq, Repr

namespace NodeKind

open Schema

def name : NodeKind → String
  | service => "service"
  | component => "component"
  | directive => "directive"
  | unknown => "unknown"

def all : List NodeKind := [service, component, directive, unknown]

def decode : Decoder NodeKind :=
  Decoder.oneOf .notOneOf (all.map fun kind => (kind.name, kind))

end NodeKind

/-- A class in the graph. -/
structure Node where
  id : String
  kind : NodeKind
deriving DecidableEq, Repr

/-- A dependency of `source` on the token `target`. -/
structure Edge where
  source : String
  target : String
  flags : Option Flags
  circular : Option Bool
deriving DecidableEq, Repr

def Edge.isLoop (edge : Edge) : Bool := edge.source = edge.target

/-- Nodes, edges and the cycles that were found. -/
structure Graph where
  nodes : List Node
  edges : List Edge
  cycles : List (List String)
deriving DecidableEq, Repr

namespace Graph

def empty : Graph := ⟨[], [], []⟩

def ids (graph : Graph) : List String := graph.nodes.map (·.id)

/-- The first node with an id. -/
def node? (graph : Graph) (id : String) : Option Node := graph.nodes.find? (·.id == id)

end Graph

end Wiring
