import Wiring.Graph.Basic
import Wiring.Text.Join

/-! # Graphs as Mermaid flowcharts

One line for each edge, a circular one dotted and labelled, and after them a comment for each
cycle. Ids are reduced to letters, digits and underscores where they name a node; in a comment they
stand as they are.
-/

namespace Wiring.Graph

def isNameChar (c : Char) : Bool := c.isAlphanum || c == '_'

/-- An id as a node name: points and hyphens become underscores, and other symbols are dropped. -/
def nodeName (id : String) : String :=
  String.ofList
    ((id.toList.map fun c => if c = '.' ∨ c = '-' then '_' else c).filter isNameChar)

/-- A cycle from its first id around to it, if it has one. -/
def roundTrip? : List String → Option String
  | [] => none
  | first :: rest => some (Text.join " -> " (first :: rest ++ [first]))

def edgeLine (edge : Edge) : String :=
  let source := nodeName edge.source
  let target := nodeName edge.target
  if edge.circular = some true then s!"  {source} -.->|circular| {target}"
  else s!"  {source} --> {target}"

/-- Why a graph cannot be drawn. -/
inductive DrawingFault where
  | emptyCycle
deriving DecidableEq, Repr

def DrawingFault.message : DrawingFault → String
  | emptyCycle => "list index out of range"

def cycleLine (cycle : List String) : Except DrawingFault String :=
  match roundTrip? cycle with
  | some text => .ok ("  %% " ++ text)
  | none => .error .emptyCycle

/-- The lines about cycles, none if there are no cycles. -/
def cycleLines (cycles : List (List String)) : Except DrawingFault (List String) :=
  match cycles with
  | [] => .ok []
  | _ => do
    let lines ← cycles.mapM cycleLine
    return "" :: "  %% Circular Dependencies Detected:" :: lines

/-- The flowchart of a graph. A graph without nodes is a comment that says so. -/
def mermaid (graph : Graph) : Except DrawingFault String :=
  if graph.nodes.isEmpty then .ok "flowchart LR\n  %% Empty graph - no nodes to display"
  else do
    let cycles ← cycleLines graph.cycles
    return Text.joinLines ("flowchart LR" :: graph.edges.map edgeLine ++ cycles)

end Wiring.Graph
