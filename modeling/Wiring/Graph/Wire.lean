import Wiring.Graph.Basic

/-! # Graphs as JSON

A graph is read from a record whose fields may be missing, and written in two ways: with every
field, or as a document in which what is absent is left out.
-/

namespace Wiring

open Schema
open Json (Value)

namespace Node

def decode : Decoder Node :=
  record "Node" <|
    Node.mk <$> Fields.required ["id"] Decoder.nonEmptyText
      <*> Fields.withDefault ["kind"] .unknown NodeKind.decode

def encode (node : Node) : Value :=
  .obj [("id", .str node.id), ("kind", .str node.kind.name)]

end Node

namespace Edge

def decode : Decoder Edge :=
  record "Edge" <|
    Edge.mk <$> Fields.required ["from", "from_"] Decoder.text
      <*> Fields.required ["to"] Decoder.text
      <*> Fields.nullable ["flags"] (Flags.decode "EdgeFlags")
      <*> Fields.nullable ["isCircular", "is_circular"] Decoder.bool

/-- Write an edge with all its fields. -/
def encode (edge : Edge) : Value :=
  .obj [("from", .str edge.source), ("to", .str edge.target),
    ("flags", (edge.flags.map Flags.encode).getD .null), ("isCircular", .ofBool? edge.circular)]

/-- Write an edge without what is absent. -/
def encodePresent (edge : Edge) : Value :=
  .obj ([("from", .str edge.source), ("to", .str edge.target)] ++
    (edge.flags.map fun flags => ("flags", flags.encodeAsserted)).toList ++
    (edge.circular.map fun mark => ("isCircular", .bool mark)).toList)

end Edge

namespace Graph

def decode : Decoder Graph :=
  record "Graph" <|
    Graph.mk <$> Fields.withDefault ["nodes"] [] (Decoder.list Node.decode)
      <*> Fields.withDefault ["edges"] [] (Decoder.list Edge.decode)
      <*> Fields.withDefault ["circularDependencies", "circular_dependencies"] []
        (Decoder.list (Decoder.list Decoder.text))

/-- Write a graph with its edges written by `edge`. -/
def encodeWith (edge : Edge → Value) (graph : Graph) : Value :=
  .obj [("nodes", .arr (graph.nodes.map Node.encode)), ("edges", .arr (graph.edges.map edge)),
    ("circularDependencies", .arr (graph.cycles.map Value.ofStrings))]

def encode : Graph → Value := encodeWith Edge.encode

/-- Write a graph without what is absent. -/
def encodePresent : Graph → Value := encodeWith Edge.encodePresent

end Graph

end Wiring
