import Wiring.Proofs.Restriction

/-! # What a restriction keeps

Exploring from entries reaches what can be got to from those of them that are nodes, and nothing
else. The worklist may hold an id many times, or one that was reached meanwhile; what it leads to
stays the same from step to step. So a restriction in one direction is known from the edges alone:
it keeps the nodes that can be got to and the edges that are entered at a token that can.
-/

namespace Wiring

/-- The direction in which a sub-graph grows when edges are followed in one sense. -/
def Sense.direction : Sense → Direction
  | forward => .downstream
  | backward => .upstream

theorem Sense.senses_direction (sense : Sense) : sense.direction.senses = [sense] := by
  cases sense <;> rfl

namespace Graph

variable {graph : Graph} {sense : Sense} {edges : List (Edge × Nat)} {work entries : List String}
  {sofar : Reach} {id : String}

/-- What holds of the worklist and is passed on along edges holds of everything that is reached. -/
theorem forall_mem_explore (Holds : String → Prop)
    (passedOn : ∀ edge place, (edge, place) ∈ edges → Holds (sense.tail edge) →
      Holds (sense.head edge))
    (waiting : ∀ id ∈ work, Holds id) (before : ∀ id ∈ sofar.reached, Holds id) :
    ∀ id ∈ (explore sense edges work sofar).reached, Holds id := by
  fun_induction explore sense edges work sofar with
  | case1 sofar => exact before
  | case2 sofar id rest old ih =>
    exact ih (fun other member => waiting other (List.mem_cons_of_mem _ member)) before
  | case3 sofar id rest fresh out reached heads next ih =>
    have here : Holds id := waiting id (List.mem_cons_self ..)
    refine ih ?_ ?_
    · -- what is new on the worklist are heads of edges that are entered at `id`
      intro other member
      rcases List.mem_append.mp member with added | waits
      · obtain ⟨⟨edge, place⟩, leaves, rfl⟩ := List.mem_map.mp (List.mem_of_mem_filter added)
        obtain ⟨listed, tail⟩ := List.mem_filter.mp leaves
        exact passedOn edge place listed (beq_iff_eq.mp tail ▸ here)
      · exact waiting other (List.mem_cons_of_mem _ waits)
    · intro other member
      rcases List.mem_cons.mp member with rfl | earlier
      · exact here
      · exact before other earlier

/-- An edge leads from one token to another when it is followed in a sense. -/
def Follows (graph : Graph) (sense : Sense) (first second : String) : Prop :=
  ∃ edge ∈ graph.edges, sense.tail edge = first ∧ sense.head edge = second

/-- What follows on something that is reached is reached. -/
theorem mem_reach_of_follows {first second : String}
    (follows : Relation.ReflTransGen (graph.Follows sense) first second)
    (reached : first ∈ (graph.reach sense entries).reached) :
    second ∈ (graph.reach sense entries).reached := by
  induction follows with
  | refl => exact reached
  | tail _ step ih =>
    obtain ⟨edge, listed, rfl, rfl⟩ := step
    obtain ⟨place, found⟩ := List.mem_iff_getElem?.mp listed
    exact head_mem_reach sense found ih

/-- A token can be got to from an entry that is a node, over any number of edges. -/
def Accessible (graph : Graph) (sense : Sense) (entries : List String) (id : String) : Prop :=
  ∃ entry ∈ entries, entry ∈ graph.ids ∧ Relation.ReflTransGen (graph.Follows sense) entry id

/-- Exactly what can be got to is reached. -/
theorem mem_reach_iff :
    id ∈ (graph.reach sense entries).reached ↔ graph.Accessible sense entries id := by
  constructor
  · refine forall_mem_explore (graph.Accessible sense entries) ?_ ?_ ?_ id
    · rintro edge place listed ⟨entry, isEntry, known, path⟩
      have member : edge ∈ graph.edges := List.fst_mem_of_mem_zipIdx listed
      exact ⟨entry, isEntry, known, path.tail ⟨edge, member, rfl, rfl⟩⟩
    · intro entry member
      obtain ⟨isEntry, known⟩ := List.mem_filter.mp member
      exact ⟨entry, isEntry, List.contains_iff_mem.mp known, .refl⟩
    · exact nofun
  · rintro ⟨entry, isEntry, known, path⟩
    exact mem_reach_of_follows path (mem_reach_of_entry isEntry known)

section Parts

/-- The part of a graph with some of its nodes and edges: it has the cycles that lie inside it. -/
def within (graph : Graph) (nodes : List Node) (edges : List Edge) : Graph where
  nodes := nodes
  edges := edges
  cycles := graph.cycles.filter
    (survives (nodes.map (·.id)) (edges.map fun edge => (edge.source, edge.target)))

/-- The items of a list at the chosen places, in order. -/
def pick {α : Type} (items : List α) (chosen : Nat → Bool) : List α :=
  (items.zipIdx.filter fun item => chosen item.2).map (·.1)

theorem keep_eq_within (graph : Graph) (reach : Reach) :
    graph.keep reach = graph.within (graph.nodes.filter fun node => reach.reached.contains node.id)
      (pick graph.edges fun place => reach.followed.contains place) := rfl

/-- Choosing places by the items that stand there is choosing items. -/
theorem pick_eq_filter {α : Type} {items : List α} {chosen : Nat → Bool} {test : α → Bool}
    (agree : ∀ place item, items[place]? = some item → chosen place = test item) :
    pick items chosen = items.filter test := by
  have same : (items.zipIdx.filter fun item => chosen item.2) =
      items.zipIdx.filter (test ∘ Prod.fst) := by
    refine List.filter_congr ?_
    rintro ⟨item, place⟩ listed
    exact agree place item (List.mem_zipIdx_iff_getElem?.mp listed)
  calc
    pick items chosen = (items.zipIdx.filter (test ∘ Prod.fst)).map Prod.fst := by rw [pick, same]
    _ = (items.zipIdx.map Prod.fst).filter test := List.filter_map.symm
    _ = items.filter test := by rw [List.zipIdx_map_fst]

private theorem within_nil (graph : Graph) : graph.within [] [] = .empty := by
  have none : graph.cycles.filter (survives [] []) = [] := by
    refine List.filter_eq_nil_iff.mpr fun cycle _ survived => ?_
    obtain ⟨nonempty, inside, _⟩ := survives_iff.mp survived
    obtain ⟨id, member⟩ := List.exists_mem_of_ne_nil cycle nonempty
    exact List.not_mem_nil (inside id member)
  exact congrArg (Graph.mk [] []) none

end Parts

/-- Whether entries reach a point in one of the senses of a direction. A token is the same point in
every sense; an edge is met where it is entered. -/
def meets (graph : Graph) (entries : List String) (direction : Direction)
    (point : Sense → String) : Bool :=
  direction.senses.any fun sense => (graph.reach sense entries).reached.contains (point sense)

theorem meets_iff {direction : Direction} {point : Sense → String} :
    graph.meets entries direction point = true ↔
      ∃ sense ∈ direction.senses, graph.Accessible sense entries (point sense) := by
  simp only [meets, List.any_eq_true, List.contains_iff_mem, mem_reach_iff]

/-- Entries that get to the same tokens meet the same points, be it in different graphs. -/
theorem meets_congr {other : Graph} {others : List String} {direction : Direction}
    (same : ∀ sense ∈ direction.senses, ∀ id,
      other.Accessible sense others id ↔ graph.Accessible sense entries id) :
    other.meets others direction = graph.meets entries direction := by
  funext point
  rw [Bool.eq_iff_iff, meets_iff, meets_iff]
  exact exists_congr fun sense => and_congr_right fun chosen => same sense chosen (point sense)

/-- What a restriction keeps, by a test on each node and on each edge. -/
theorem restrict_eq_within (nonempty : entries ≠ []) (direction : Direction) :
    graph.restrict entries direction =
      graph.within
        (graph.nodes.filter fun node => graph.meets entries direction fun _ => node.id)
        (graph.edges.filter fun edge => graph.meets entries direction (Sense.tail · edge)) := by
  have nodes (node : Node) : (graph.reachAlong entries direction).reached.contains node.id =
      graph.meets entries direction fun _ => node.id := by
    rw [Bool.eq_iff_iff, List.contains_iff_mem, mem_reached_reachAlong_iff, meets_iff]
    simp only [mem_reach_iff]
  have edges (place : Nat) (edge : Edge) (found : graph.edges[place]? = some edge) :
      (graph.reachAlong entries direction).followed.contains place =
        graph.meets entries direction (Sense.tail · edge) := by
    rw [Bool.eq_iff_iff, List.contains_iff_mem, mem_followed_reachAlong_iff, meets_iff]
    simp only [mem_followed_reach_iff, found, Option.some.injEq, exists_eq_left', mem_reach_iff]
  rw [restrict_eq_keep nonempty, keep_eq_within, pick_eq_filter edges, funext nodes]

/-- Entries that are no nodes have no influence on what can be got to. -/
theorem accessible_congr {others : List String}
    (same : ∀ id ∈ graph.ids, id ∈ others ↔ id ∈ entries) :
    graph.Accessible sense others id ↔ graph.Accessible sense entries id := by
  constructor
  · rintro ⟨entry, isEntry, known, path⟩
    exact ⟨entry, (same entry known).mp isEntry, known, path⟩
  · rintro ⟨entry, isEntry, known, path⟩
    exact ⟨entry, (same entry known).mpr isEntry, known, path⟩

/-- A restriction depends only on which nodes are entries. -/
theorem restrict_congr {others : List String} (nonempty : entries ≠ []) (nonempty' : others ≠ [])
    (same : ∀ id ∈ graph.ids, id ∈ others ↔ id ∈ entries) (direction : Direction) :
    graph.restrict others direction = graph.restrict entries direction := by
  have meets : graph.meets others direction = graph.meets entries direction :=
    meets_congr fun _ _ _ => accessible_congr same
  rw [restrict_eq_within nonempty', restrict_eq_within nonempty, meets]

/-- Without an entry that is a node nothing is kept. -/
theorem restrict_eq_empty (nonempty : entries ≠ [])
    (unknown : ∀ entry ∈ entries, entry ∉ graph.ids) (direction : Direction) :
    graph.restrict entries direction = .empty := by
  have nothing (point : Sense → String) : graph.meets entries direction point = false := by
    rw [Bool.eq_false_iff, Ne, meets_iff]
    rintro ⟨_, _, entry, isEntry, known, _⟩
    exact unknown entry isEntry known
  simp only [restrict_eq_within nonempty, nothing, List.filter_false, within_nil]

private theorem reachAlong_direction (graph : Graph) (sense : Sense) (entries : List String) :
    graph.reachAlong entries sense.direction = graph.reach sense entries := by
  cases sense <;> rfl

/-- Restricting in one direction is exact: the entries that are nodes reach all that can be got to
from them and nothing else, tokens that are no nodes included, and the edges that are entered there
are followed. The nodes that are reached and the edges that are followed are kept as they are and in
order. Other entries have no influence, and without an entry that is a node nothing is kept. -/
theorem restrict_exact (graph : Graph) (entries : List String) (nonempty : entries ≠ [])
    (sense : Sense) :
    let reach := graph.reach sense entries
    let part := graph.restrict entries sense.direction
    (∀ id, id ∈ reach.reached ↔ graph.Accessible sense entries id) ∧
    (∀ place, place ∈ reach.followed ↔
      ∃ edge, graph.edges[place]? = some edge ∧ sense.tail edge ∈ reach.reached) ∧
    part.nodes = (graph.nodes.filter fun node => reach.reached.contains node.id) ∧
    part.edges = pick graph.edges (fun place => reach.followed.contains place) ∧
    (∀ others, others ≠ [] → (∀ id ∈ graph.ids, id ∈ others ↔ id ∈ entries) →
      graph.restrict others sense.direction = part) ∧
    ((∀ entry ∈ entries, entry ∉ graph.ids) → part = .empty) := by
  intro reach part
  have kept : part = graph.keep reach :=
    (restrict_eq_keep nonempty sense.direction).trans
      (congrArg graph.keep (reachAlong_direction graph sense entries))
  refine ⟨fun _ => mem_reach_iff, fun _ => mem_followed_reach_iff, ?_, ?_, ?_, ?_⟩
  · rw [kept, keep_eq_within]
    rfl
  · rw [kept, keep_eq_within]
    rfl
  · intro others nonempty' same
    exact restrict_congr nonempty nonempty' same sense.direction
  · intro unknown
    exact restrict_eq_empty nonempty unknown sense.direction

theorem restrict_exact_knot :
    ["Nope", "A"] ≠ [] ∧ "X" ∈ (knot.reach .forward ["Nope", "A"]).reached ∧
      knot.restrict ["A"] .downstream = knot.restrict ["Nope", "A"] .downstream ∧
      knot.restrict ["Nope"] .upstream = .empty := by
  obtain ⟨reached, _, _, _, others, _⟩ := restrict_exact knot ["Nope", "A"] (by decide) .forward
  obtain ⟨_, _, _, _, _, unknown⟩ := restrict_exact knot ["Nope"] (by decide) .backward
  have there : knot.Follows .forward "A" "B" := ⟨⟨"A", "B", none, none⟩, by decide, rfl, rfl⟩
  have on : knot.Follows .forward "B" "X" := ⟨⟨"B", "X", none, none⟩, by decide, rfl, rfl⟩
  refine ⟨by decide, (reached "X").mpr ⟨"A", by decide, by decide, .tail (.single there) on⟩, ?_, ?_⟩
  · exact others ["A"] (by decide) (by decide)
  · exact unknown (by decide)

end Graph

end Wiring
