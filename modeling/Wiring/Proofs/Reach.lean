import Wiring.Proofs.Walk

/-! # What is reached and followed

Exploring in one sense ends with a set of ids that is closed: an edge is followed exactly if it is
entered at an id that is reached, and then it leads to one. In both senses together the followed
edges are more than those of either, but an edge that lies on a cycle is still followed as soon as
one of its ends is reached.
-/

namespace Wiring.Graph

variable {graph : Graph} {sense : Sense} {edges : List (Edge × Nat)} {work entries : List String}
  {sofar : Reach} {place : Nat} {edge : Edge} {id : String}

/-- What is reached is closed, up to what is still on the worklist. -/
structure Explored (sense : Sense) (edges : List (Edge × Nat)) (work : List String)
    (sofar : Reach) : Prop where
  followed : ∀ place, place ∈ sofar.followed ↔
    ∃ edge, (edge, place) ∈ edges ∧ sense.tail edge ∈ sofar.reached
  closed : ∀ edge place, (edge, place) ∈ edges → sense.tail edge ∈ sofar.reached →
    sense.head edge ∈ sofar.reached ∨ sense.head edge ∈ work

namespace Explored

theorem skip (explored : Explored sense edges (id :: work) sofar)
    (old : id ∈ sofar.reached) : Explored sense edges work sofar where
  followed := explored.followed
  closed edge place listed entered := by
    rcases explored.closed edge place listed entered with reached | waiting
    · exact .inl reached
    · rcases List.mem_cons.mp waiting with same | waiting
      · exact .inl (same ▸ old)
      · exact .inr waiting

theorem follow (explored : Explored sense edges (id :: work) sofar) :
    Explored sense edges
      ((((entered sense edges id).map fun edge => sense.head edge.1).filter fun other =>
        !(id :: sofar.reached).contains other) ++ work)
      ⟨id :: sofar.reached, (entered sense edges id).map (·.2) ++ sofar.followed⟩ where
  followed place := by
    simp only [List.mem_append, List.mem_map, Prod.exists, entered, List.mem_filter, beq_iff_eq,
      explored.followed, List.mem_cons]
    constructor
    · rintro (⟨edge, _, ⟨listed, here⟩, rfl⟩ | ⟨edge, listed, before⟩)
      · exact ⟨edge, listed, .inl here⟩
      · exact ⟨edge, listed, .inr before⟩
    · rintro ⟨edge, listed, here | before⟩
      · exact .inl ⟨edge, place, ⟨listed, here⟩, rfl⟩
      · exact .inr ⟨edge, listed, before⟩
  closed edge place listed tail := by
    by_cases known : sense.head edge ∈ id :: sofar.reached
    · exact .inl known
    · refine .inr (List.mem_append.mpr ?_)
      rcases List.mem_cons.mp tail with here | before
      · have out : (edge, place) ∈ entered sense edges id :=
          List.mem_filter.mpr ⟨listed, beq_iff_eq.mpr here⟩
        exact .inl (List.mem_filter.mpr
          ⟨List.mem_map.mpr ⟨_, out, rfl⟩, by simpa using known⟩)
      · rcases explored.closed edge place listed before with reached | waiting
        · exact absurd (List.mem_cons_of_mem _ reached) known
        · rcases List.mem_cons.mp waiting with same | waiting
          · exact absurd (same ▸ List.mem_cons_self ..) known
          · exact .inr waiting

/-- At the end nothing is left on the worklist. -/
theorem explore (explored : Explored sense edges work sofar) :
    Explored sense edges [] (explore sense edges work sofar) := by
  fun_induction Graph.explore sense edges work sofar with
  | case1 sofar => exact explored
  | case2 sofar id rest old ih => exact ih (explored.skip old)
  | case3 sofar id rest fresh out reached heads next ih => exact ih explored.follow

end Explored

/-- Nothing on the worklist is lost, nor what was reached before. -/
theorem mem_explore (due : id ∈ work ∨ id ∈ sofar.reached) :
    id ∈ (explore sense edges work sofar).reached := by
  fun_induction explore sense edges work sofar with
  | case1 sofar => exact due.resolve_left List.not_mem_nil
  | case2 sofar first rest old ih =>
    apply ih
    rcases due with waits | before
    · rcases List.mem_cons.mp waits with rfl | waits
      · exact .inr old
      · exact .inl waits
    · exact .inr before
  | case3 sofar first rest fresh out reached heads next ih =>
    apply ih
    rcases due with waits | before
    · rcases List.mem_cons.mp waits with rfl | waits
      · exact .inr (List.mem_cons_self ..)
      · exact .inl (List.mem_append_right _ waits)
    · exact .inr (List.mem_cons_of_mem _ before)

/-- Entries that are nodes are reached. -/
theorem mem_reach_of_entry (listed : id ∈ entries) (known : id ∈ graph.ids) :
    id ∈ (graph.reach sense entries).reached := by
  refine mem_explore (.inl (List.mem_filter.mpr ⟨listed, ?_⟩))
  exact List.contains_iff_mem.mpr known

theorem reach_explored (graph : Graph) (sense : Sense) (entries : List String) :
    Explored sense graph.edges.zipIdx [] (graph.reach sense entries) :=
  Explored.explore ⟨by simp [Reach.nothing], by simp [Reach.nothing]⟩

/-- An edge is followed exactly if it is entered at an id that is reached. -/
theorem mem_followed_reach_iff :
    place ∈ (graph.reach sense entries).followed ↔
      ∃ edge, graph.edges[place]? = some edge ∧
        sense.tail edge ∈ (graph.reach sense entries).reached := by
  simp only [(reach_explored graph sense entries).followed, List.mem_zipIdx_iff_getElem?]

/-- An edge that is entered at an id that is reached leads to one. -/
theorem head_mem_reach (sense : Sense) (found : graph.edges[place]? = some edge)
    (entered : sense.tail edge ∈ (graph.reach sense entries).reached) :
    sense.head edge ∈ (graph.reach sense entries).reached := by
  have listed : (edge, place) ∈ graph.edges.zipIdx := List.mem_zipIdx_iff_getElem?.mpr found
  exact ((reach_explored graph sense entries).closed edge place listed entered).resolve_right
    List.not_mem_nil

/-- What is linked to each other, step by step, is reached forward from its start. -/
theorem reach_forward_of_linked {first last : String}
    (links : Relation.ReflTransGen graph.Linked first last)
    (reached : first ∈ (graph.reach .forward entries).reached) :
    last ∈ (graph.reach .forward entries).reached := by
  induction links with
  | refl => exact reached
  | tail _ link ih =>
    obtain ⟨place, edge, found, rfl, rfl⟩ := link.exists_place
    exact head_mem_reach .forward found ih

/-- What is linked to each other, step by step, is reached backward from its end. -/
theorem reach_backward_of_linked {first last : String}
    (links : Relation.ReflTransGen graph.Linked first last)
    (reached : last ∈ (graph.reach .backward entries).reached) :
    first ∈ (graph.reach .backward entries).reached := by
  induction links with
  | refl => exact reached
  | tail _ link ih =>
    obtain ⟨place, edge, found, rfl, rfl⟩ := link.exists_place
    exact ih (head_mem_reach .backward found reached)

/-- An edge on a cycle is entered at an id that is reached if either of its ends is reached. -/
theorem tail_mem_reach_of_cycle (back : Relation.ReflTransGen graph.Linked edge.target edge.source)
    (touched : edge.source ∈ (graph.reach sense entries).reached ∨
      edge.target ∈ (graph.reach sense entries).reached) :
    sense.tail edge ∈ (graph.reach sense entries).reached := by
  cases sense with
  | forward =>
    rcases touched with source | target
    · exact source
    · exact reach_forward_of_linked back target
  | backward =>
    rcases touched with source | target
    · exact reach_backward_of_linked back source
    · exact target

theorem mem_reached_reachAlong_iff {direction : Direction} :
    id ∈ (graph.reachAlong entries direction).reached ↔
      ∃ sense ∈ direction.senses, id ∈ (graph.reach sense entries).reached := by
  cases direction <;> simp [reachAlong, Direction.senses, Reach.union, Reach.nothing]

theorem mem_followed_reachAlong_iff {direction : Direction} :
    place ∈ (graph.reachAlong entries direction).followed ↔
      ∃ sense ∈ direction.senses, place ∈ (graph.reach sense entries).followed := by
  cases direction <;> simp [reachAlong, Direction.senses, Reach.union, Reach.nothing]

/-- A reach tears nothing apart: it holds both ends of the edges that it follows, and follows an
edge that lies on a cycle as soon as it holds one of its ends. -/
structure Reach.Coherent (graph : Graph) (reach : Reach) : Prop where
  ends : ∀ {place : Nat} {edge : Edge}, graph.edges[place]? = some edge →
    place ∈ reach.followed → edge.source ∈ reach.reached ∧ edge.target ∈ reach.reached
  round : ∀ {place : Nat} {edge : Edge}, graph.edges[place]? = some edge →
    Relation.ReflTransGen graph.Linked edge.target edge.source →
    edge.source ∈ reach.reached ∨ edge.target ∈ reach.reached → place ∈ reach.followed

theorem reachAlong_coherent (graph : Graph) (entries : List String) (direction : Direction) :
    Reach.Coherent graph (graph.reachAlong entries direction) where
  ends found followed := by
    obtain ⟨sense, chosen, followed⟩ := mem_followed_reachAlong_iff.mp followed
    obtain ⟨edge', found', tail⟩ := mem_followed_reach_iff.mp followed
    obtain rfl := Option.some.inj (found.symm.trans found')
    have head := head_mem_reach sense found tail
    cases sense with
    | forward =>
      exact ⟨mem_reached_reachAlong_iff.mpr ⟨_, chosen, tail⟩,
        mem_reached_reachAlong_iff.mpr ⟨_, chosen, head⟩⟩
    | backward =>
      exact ⟨mem_reached_reachAlong_iff.mpr ⟨_, chosen, head⟩,
        mem_reached_reachAlong_iff.mpr ⟨_, chosen, tail⟩⟩
  round {place edge} found back touched := by
    simp only [mem_reached_reachAlong_iff] at touched
    -- one sense that reaches an end is enough: this sense alone then follows the edge
    have either : ∃ sense ∈ direction.senses, edge.source ∈ (graph.reach sense entries).reached ∨
        edge.target ∈ (graph.reach sense entries).reached := by
      rcases touched with ⟨sense, chosen, source⟩ | ⟨sense, chosen, target⟩
      · exact ⟨sense, chosen, .inl source⟩
      · exact ⟨sense, chosen, .inr target⟩
    obtain ⟨sense, chosen, touched⟩ := either
    exact mem_followed_reachAlong_iff.mpr ⟨sense, chosen,
      mem_followed_reach_iff.mpr ⟨_, found, tail_mem_reach_of_cycle back touched⟩⟩

end Wiring.Graph
