import Wiring.Assembly
import Wiring.Config
import Wiring.Graph.Cycles
import Wiring.Graph.Mermaid
import Wiring.Graph.Wire

/-! # From facts to a graph

The stages of an analysis with the notes they take: facts are resolved and assembled, cycles are
marked and advised on, the graph is restricted to what the configuration asks for, and rendered.
Records of texts are built into a graph with notes, and records as they are read on a ledger.
-/

namespace Wiring.Pipeline

open Json (Writing)

/-- Note the end of a block of work. -/
def finished (label : String) (category : Log.Category) : Note :=
  .event (.finished label category Log.instant)

def markCycles (graph : Graph) : Noted Graph :=
  let found := graph.circularity
  { value := graph.withCircularity found
    notes :=
      if found.cycles.isEmpty && found.circular.isEmpty then []
      else [.event (.of .info .graphConstruction "Detected circular dependencies"
        [("cycles", .ofNat found.cycles.length),
          ("circular_edges", .ofNat found.circular.length)])] }

def adviseCycles (graph : Graph) : List Note :=
  (graph.cycles.filterMap Graph.roundTrip?).map fun trip =>
    .advice
      { category := .circularReferences
        message := "Circular dependency: " ++ trip
        file := ""
        line := none
        column := none
        suggestion := some "Break the cycle with an optional dependency, a factory or an event"
        severity := .info }

def restrict (entries : List String) (direction : Direction) (graph : Graph) : Noted Graph :=
  let part := graph.restrict entries direction
  let missing := entries.filter fun entry => (graph.node? entry).isNone
  let nodes := part.nodes.length
  let edges := part.edges.length
  { value := part
    notes :=
      if entries.isEmpty then []
      else
        (missing.map fun entry =>
          .event (.of .warning .filtering s!"Entry point '{entry}' not found in graph" [])) ++
        [.event (.of .info .filtering s!"Filtered graph: {nodes} nodes, {edges} edges"
          [("entries", .ofStrings entries), ("direction", .str direction.word)])] }

/-- A class as it comes in: as facts, or resolved already. -/
inductive Record (τ : Type := String) where
  | facts (facts : Facts.Class τ)
  | resolved (resolved : Resolved.Class τ)
deriving DecidableEq, Repr

def Record.map {τ σ : Type} (f : τ → σ) : Record τ → Record σ
  | .facts given => .facts (given.map f)
  | .resolved given => .resolved (given.map f)

def factsOf {τ : Type} (records : List (Record τ)) : List (Facts.Class τ) :=
  records.filterMap fun record => match record with
    | .facts facts => some facts
    | .resolved _ => none

def resolvedOf {τ : Type} (records : List (Record τ)) : List (Resolved.Class τ) :=
  records.filterMap fun record => match record with
    | .facts _ => none
    | .resolved resolved => some resolved

/-- The resolved classes that records stand for. Records of both sorts do not mix. -/
def resolve (records : List Record) : Except Breach (Noted (List Resolved.Class)) :=
  if (factsOf records).isEmpty then .ok ⟨resolvedOf records, []⟩
  else if (resolvedOf records).isEmpty then .ok (Facts.resolveAll (factsOf records))
  else .error .mixedRecords

/-- Assemble resolved classes, then mark and advise on cycles. -/
def connect (includeFlags : Bool) (classes : List Resolved.Class) : Noted Graph :=
  let graph := (Assembly.assemble includeFlags classes).andThen markCycles
  ⟨graph.value, graph.notes ++ adviseCycles graph.value⟩

def focus (config : Config) (graph : Graph) : Noted Graph :=
  if config.entries.isEmpty then ⟨graph, []⟩
  else
    (restrict config.entries config.direction graph).followedBy
      (finished "graph-filter" .filtering)

/-- Note how large a finished graph is. -/
def built (graph : Graph) : Note :=
  .built graph.nodes.length graph.edges.length graph.cycles.length

/-- Build the graph of records under a configuration. -/
def build (config : Config) (records : List Record) : Noted (Except Breach Graph) :=
  match resolve records with
  | .error fault => ⟨.error fault, [finished "graph-build" .graphConstruction]⟩
  | .ok resolved =>
    let whole := (resolved.andThen (connect config.includeFlags)).followedBy
      (finished "graph-build" .graphConstruction)
    let part := whole.andThen (focus config)
    (part.followedBy (built part.value)).map .ok

/-- The resolved classes that records stand for, resolved on a ledger. -/
def resolveOn (records : List (Record Writing)) : Stage (List (Resolved.Class Writing)) :=
  if (factsOf records).isEmpty then return resolvedOf records
  else if (resolvedOf records).isEmpty then Facts.resolveAllOn (factsOf records)
  else throw .mixedRecords

/-- Assemble resolved classes on a ledger, then mark and advise on cycles. -/
def connectOn (includeFlags : Bool) (classes : List (Resolved.Class Writing)) : Stage Graph := do
  let graph ← Assembly.assembleOn includeFlags classes
  let graph ← Stage.noted (markCycles graph)
  Stage.takeAll (adviseCycles graph)
  return graph

/-- Build the graph of records on a ledger under a configuration. -/
def buildOn (config : Config) (records : List (Record Writing)) : Stage Graph := do
  let whole ← Stage.closing (.finished "graph-build" .graphConstruction Log.instant) do
    connectOn config.includeFlags (← resolveOn records)
  let part ← Stage.noted (focus config whole)
  Stage.take (built part)
  return part

/-- The indented JSON text of a graph. -/
def renderJson (graph : Graph) : Noted String :=
  let text := Json.pretty graph.encodePresent
  { value := text
    notes := [finished "json-format" .performance,
      .event (.of .debug .performance "JSON output complete"
        [("output_size", .ofNat text.length), ("elapsed_ms", .float Log.instant)])] }

def renderMermaid (graph : Graph) : Noted (Except Graph.DrawingFault String) :=
  { value := graph.mermaid
    notes := if graph.nodes.isEmpty then [] else [finished "mermaid-format" .performance] }

end Wiring.Pipeline
