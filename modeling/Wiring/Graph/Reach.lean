import Wiring.Graph.Basic

/-! # Reachability

What can be reached from some entries when every edge is followed forward, or every edge backward.
Tokens that are no nodes are reached like nodes; entries that are no nodes are left out. The
worklist shrinks, or an edge is followed for the first and only time.
-/

namespace Wiring

/-- The way in which edges are followed. -/
inductive Sense where
  | forward
  | backward
deriving DecidableEq, Repr

namespace Sense

/-- The end of an edge at which it is entered. -/
def tail (sense : Sense) (edge : Edge) : String :=
  match sense with
  | forward => edge.source
  | backward => edge.target

/-- The end of an edge to which it leads. -/
def head (sense : Sense) (edge : Edge) : String :=
  match sense with
  | forward => edge.target
  | backward => edge.source

end Sense

namespace Graph

/-- The ids that were reached and the places of the edges that were followed. -/
structure Reach where
  reached : List String
  followed : List Nat
deriving DecidableEq, Repr

namespace Reach

def nothing : Reach := ⟨[], []⟩

def union (a b : Reach) : Reach := ⟨a.reached ++ b.reached, a.followed ++ b.followed⟩

end Reach

/-- The edges that are entered at an id, each with its place. -/
def entered (sense : Sense) (edges : List (Edge × Nat)) (id : String) : List (Edge × Nat) :=
  edges.filter fun edge => sense.tail edge.1 == id

/-- The number of edges that are entered at no id reached so far. -/
def unexplored (sense : Sense) (edges : List (Edge × Nat)) (reached : List String) : Nat :=
  edges.countP fun edge => !reached.contains (sense.tail edge.1)

/-- An id that is reached for the first time leaves its own edges explored. -/
theorem unexplored_cons (sense : Sense) (edges : List (Edge × Nat)) {reached : List String}
    {id : String} (fresh : id ∉ reached) :
    unexplored sense edges (id :: reached) + (entered sense edges id).length =
      unexplored sense edges reached := by
  induction edges with
  | nil => rfl
  | cons edge edges ih =>
    simp only [unexplored, entered, List.countP_cons, List.filter_cons, List.contains_eq_mem,
      List.mem_cons] at ih ⊢
    by_cases here : sense.tail edge.1 = id
    · subst here
      simp [fresh] at ih ⊢
      omega
    · by_cases seen : sense.tail edge.1 ∈ reached <;> simp [here, seen] at ih ⊢ <;> omega

/-- Reach everything on the worklist and all that follows from it. -/
def explore (sense : Sense) (edges : List (Edge × Nat)) (work : List String) (sofar : Reach) :
    Reach :=
  match work with
  | [] => sofar
  | id :: rest =>
    if id ∈ sofar.reached then explore sense edges rest sofar
    else
      let out := entered sense edges id
      let reached := id :: sofar.reached
      let heads := out.map fun edge => sense.head edge.1
      let next := heads.filter fun other => !reached.contains other
      explore sense edges (next ++ rest) ⟨reached, out.map (·.2) ++ sofar.followed⟩
termination_by unexplored sense edges sofar.reached + work.length
decreasing_by
  · simp
  · rename_i fresh
    have total := unexplored_cons sense edges fresh
    have few := List.length_filter_le
      (fun other => !(id :: sofar.reached).contains other)
      ((entered sense edges id).map fun edge => sense.head edge.1)
    simp only [List.length_append, List.length_cons, List.length_map] at few ⊢
    omega

/-- What can be reached from the entries that are nodes. -/
def reach (graph : Graph) (sense : Sense) (entries : List String) : Reach :=
  let ids := graph.ids
  explore sense graph.edges.zipIdx (entries.filter fun entry => ids.contains entry) .nothing

end Graph

end Wiring
