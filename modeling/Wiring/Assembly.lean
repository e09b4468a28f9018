import Wiring.Facts.Resolution

/-! # Assembling a graph

A node for each resolved class, then an edge for each of its dependencies, in order. A class
without a name is dropped, and so is one whose name an earlier class has. Tokens that name no class
get an edge but no node. On a ledger, the id of each node is checked once more.
-/

namespace Wiring.Assembly

open Json (Writing)

/-- The name of a class, blanks around it apart. -/
def name? (resolved : Resolved.Class) : Option String := resolved.name.bind Text.nonBlank?

/-- The edges that leave a class. Flags are shown if they are wanted and some are asserted. -/
def edgesOf (includeFlags : Bool) (name : String) (resolved : Resolved.Class) : List Edge :=
  resolved.dependencies.map fun dependency =>
    { source := name
      target := dependency.token
      flags := if includeFlags then dependency.flags.filter fun flags => !flags.isEmpty else none
      circular := none }

def adviseDropped (resolved : Resolved.Class) (message suggestion : String) : Note :=
  Facts.advise .skippedClasses message (resolved.file.getD "") resolved.location suggestion

def adviseNameless (position : Nat) (resolved : Resolved.Class) : Note :=
  adviseDropped resolved s!"Dropping class record {position} without a name"
    "Give the class a name so it can be included in the dependency graph"

def adviseDuplicate (position : Nat) (name : String) (resolved : Resolved.Class) : Note :=
  adviseDropped resolved
    s!"Duplicate class name '{name}' at class record {position}; keeping the first occurrence"
    "Rename one of the classes so every class name is unique"

/-- Nodes, edges and advice from the class at a position on; `seen` holds the names before it. -/
def collect (includeFlags : Bool) (position : Nat) (seen : List String) :
    List Resolved.Class → List Node × List Edge × List Note
  | [] => ([], [], [])
  | resolved :: rest =>
    match name? resolved with
    | none =>
      let (nodes, edges, notes) := collect includeFlags (position + 1) seen rest
      (nodes, edges, adviseNameless position resolved :: notes)
    | some name =>
      if name ∈ seen then
        let (nodes, edges, notes) := collect includeFlags (position + 1) seen rest
        (nodes, edges, adviseDuplicate position name resolved :: notes)
      else
        let (nodes, edges, notes) := collect includeFlags (position + 1) (name :: seen) rest
        (⟨name, resolved.kind⟩ :: nodes, edgesOf includeFlags name resolved ++ edges, notes)

/-- The tokens that are no nodes, each once. -/
def externalTokens (nodes : List Node) (edges : List Edge) : List String :=
  let ids := nodes.map (·.id)
  ((edges.map (·.target)).filter fun token => !ids.contains token).eraseDups

/-- The event that tells how large an assembled graph is. -/
def assembledEvent (nodes : List Node) (edges : List Edge) : Log.Event :=
  .of .info .graphConstruction "Assembled dependency graph"
    [("nodes", .ofNat nodes.length), ("edges", .ofNat edges.length),
      ("external_tokens", .ofNat (externalTokens nodes edges).length)]

/-- Assemble resolved classes into a graph without cycles listed. -/
def assemble (includeFlags : Bool) (classes : List Resolved.Class) : Noted Graph :=
  let (nodes, edges, notes) := collect includeFlags 1 [] classes
  { value := ⟨nodes, edges, []⟩
    notes := notes ++ [.event (assembledEvent nodes edges)] }

/-- The name of a class as it was read, blanks around it apart. -/
def writtenName? (resolved : Resolved.Class Writing) : Option Writing :=
  resolved.name.bind Writing.nonBlank?

/-- Nodes and edges from the class at a position on, collected on a ledger. -/
def collectOn (includeFlags : Bool) (position : Nat) (seen : List Writing) :
    List (Resolved.Class Writing) → Stage (List Node × List Edge)
  | [] => return ([], [])
  | resolved :: rest =>
    match writtenName? resolved with
    | none => do
      Stage.take (adviseNameless position (resolved.map Writing.text))
      collectOn includeFlags (position + 1) seen rest
    | some name =>
      if name ∈ seen then do
        Stage.take (adviseDuplicate position name.text (resolved.map Writing.text))
        collectOn includeFlags (position + 1) seen rest
      else do
        Stage.check "Node" "id" name
        let (nodes, edges) ← collectOn includeFlags (position + 1) (name :: seen) rest
        return (⟨name.text, resolved.kind⟩ :: nodes,
          edgesOf includeFlags name.text (resolved.map Writing.text) ++ edges)

def assembleOn (includeFlags : Bool) (classes : List (Resolved.Class Writing)) : Stage Graph := do
  let (nodes, edges) ← collectOn includeFlags 1 [] classes
  Stage.take (.event (assembledEvent nodes edges))
  return ⟨nodes, edges, []⟩

end Wiring.Assembly
