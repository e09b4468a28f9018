import Mathlib.Data.List.Chain
import Mathlib.Data.List.Forall2
import Mathlib.Logic.Relation
import Wiring.Graph.Restrict

/-! # Walks and cycles

A walk goes along edges, named by their places, so that parallel edges stay apart. A cycle is a
list of different nodes, each with an edge to the next one and the last with an edge to the first;
a node with an edge to itself is a cycle of one node. Every cycle is a walk that comes back.
-/

namespace Wiring.Graph

/-- A walk along the edges at the listed places. -/
inductive Walk (graph : Graph) : String → List Nat → String → Prop
  | nil (id : String) : Walk graph id [] id
  | cons {edge : Edge} {place : Nat} {places : List Nat} {stop : String}
      (found : graph.edges[place]? = some edge) (rest : Walk graph edge.target places stop) :
      Walk graph edge.source (place :: places) stop

/-- Both ends of the edge at a place are nodes. -/
def Known (graph : Graph) (place : Nat) : Prop :=
  ∃ edge, graph.edges[place]? = some edge ∧ edge.source ∈ graph.ids ∧ edge.target ∈ graph.ids

/-- No walk through known nodes comes back to where it starts. -/
def Acyclic (graph : Graph) : Prop :=
  ∀ id places, graph.Walk id places id → (∀ place ∈ places, graph.Known place) → places = []

/-- An edge leads from one node to another. -/
def Linked (graph : Graph) (source target : String) : Prop :=
  source ∈ graph.ids ∧ target ∈ graph.ids ∧
    ∃ edge ∈ graph.edges, edge.source = source ∧ edge.target = target

/-- Different nodes, each linked to the next and the last to the first. -/
structure IsCycle (graph : Graph) (cycle : List String) : Prop where
  nonempty : cycle ≠ []
  nodup : cycle.Nodup
  linked : ∀ step ∈ cycleSteps cycle, graph.Linked step.1 step.2

def without (graph : Graph) (places : List Nat) : Graph :=
  { graph with
    edges := (graph.edges.zipIdx.filter fun edge => !places.contains edge.2).map (·.1) }

variable {graph : Graph} {start stop : String} {places : List Nat}

theorem Walk.eq_of_nil (walk : graph.Walk start [] stop) : start = stop := by
  cases walk
  rfl

theorem Walk.source_of_cons {place : Nat} (walk : graph.Walk start (place :: places) stop) :
    ∃ edge, graph.edges[place]? = some edge ∧ edge.source = start := by
  cases walk with
  | cons found _ => exact ⟨_, found, rfl⟩

/-- A walk goes over into another graph that has an edge between the same ends for each of its
edges. -/
theorem Walk.transfer (walk : graph.Walk start places stop) (other : Graph) (Good : Nat → Prop)
    (image : ∀ place ∈ places, ∀ edge, graph.edges[place]? = some edge →
      ∃ place' edge', other.edges[place']? = some edge' ∧ edge'.source = edge.source ∧
        edge'.target = edge.target ∧ Good place') :
    ∃ places', other.Walk start places' stop ∧ places'.length = places.length ∧
      ∀ place' ∈ places', Good place' := by
  induction walk with
  | nil id => exact ⟨[], .nil id, rfl, nofun⟩
  | @cons edge place places stop found rest ih =>
    obtain ⟨place', edge', found', source, target, good⟩ := image place (List.mem_cons_self ..) edge found
    obtain ⟨places', walk', same, allGood⟩ :=
      ih fun later member => image later (List.mem_cons_of_mem _ member)
    refine ⟨place' :: places', ?_, congrArg (· + 1) same, ?_⟩
    · rw [← source]
      exact .cons found' (target ▸ walk')
    · intro later member
      rcases List.mem_cons.mp member with rfl | member
      · exact good
      · exact allGood later member

theorem Linked.exists_place {source target : String} (linked : graph.Linked source target) :
    ∃ (place : Nat) (edge : Edge), graph.edges[place]? = some edge ∧ edge.source = source ∧
      edge.target = target := by
  obtain ⟨_, _, edge, listed, atSource, atTarget⟩ := linked
  obtain ⟨place, found⟩ := List.mem_iff_getElem?.mp listed
  exact ⟨place, edge, found, atSource, atTarget⟩

/-- Along a walk, what holds of all sources and of the stop holds of all targets. -/
theorem Walk.forall_target {Holds : String → Prop} (walk : graph.Walk start places stop)
    (sources : ∀ place ∈ places, ∀ edge, graph.edges[place]? = some edge → Holds edge.source)
    (atStop : Holds stop) :
    ∀ place ∈ places, ∀ edge, graph.edges[place]? = some edge → Holds edge.target := by
  induction walk with
  | nil id => nofun
  | @cons edge place places stop found rest ih =>
    have later := ih (fun other member => sources other (List.mem_cons_of_mem _ member)) atStop
    intro other member edge' found'
    rcases List.mem_cons.mp member with rfl | member
    · obtain rfl := Option.some.inj (found.symm.trans found')
      cases places with
      | nil => exact rest.eq_of_nil ▸ atStop
      | cons next places =>
        obtain ⟨edge'', next', same⟩ := rest.source_of_cons
        exact same ▸ sources next (List.mem_cons_of_mem _ (List.mem_cons_self ..)) edge'' next'
    · exact later other member edge' found'

/-- A chain of ids with an edge between neighbours is a walk. -/
theorem exists_walk {Good : Nat → Prop} {ids : List String}
    (chain : (start :: ids ++ [stop]).IsChain fun source target =>
      ∃ place edge, graph.edges[place]? = some edge ∧ edge.source = source ∧
        edge.target = target ∧ Good place) :
    ∃ places, graph.Walk start places stop ∧ places ≠ [] ∧ ∀ place ∈ places, Good place := by
  induction ids generalizing start with
  | nil =>
    obtain ⟨place, edge, found, rfl, rfl, good⟩ := List.isChain_pair.mp chain
    exact ⟨[place], .cons found (.nil _), List.cons_ne_nil _ _, by simpa using good⟩
  | cons id ids ih =>
    obtain ⟨⟨place, edge, found, rfl, rfl, good⟩, rest⟩ := List.isChain_cons_cons.mp chain
    obtain ⟨places, walk, _, allGood⟩ := ih rest
    refine ⟨place :: places, .cons found walk, List.cons_ne_nil _ _, ?_⟩
    intro later member
    rcases List.mem_cons.mp member with rfl | member
    · exact good
    · exact allGood later member

section CycleSteps

variable {relation : String → String → Prop} {cycle : List String} {first last : String}

private theorem cycleSteps_cons (head : String) (tail : List String) :
    cycleSteps (head :: tail) = (head :: tail).zip (tail ++ [head]) := rfl

private theorem map_fst_cycleSteps (cycle : List String) :
    (cycleSteps cycle).map (·.1) = cycle := by
  cases cycle with
  | nil => rfl
  | cons head tail => exact List.map_fst_zip (by simp)

/-- Some step of a cycle leads to each of its ids. -/
theorem exists_step_to (member : last ∈ cycle) : ∃ step ∈ cycleSteps cycle, step.2 = last := by
  have targets : (cycleSteps cycle).map (·.2) = cycle.drop 1 ++ cycle.take 1 :=
    List.map_snd_zip (by simp; omega)
  rw [← List.mem_map, targets]
  refine (List.perm_append_comm.mem_iff).mpr ?_
  rwa [List.take_append_drop]

theorem mem_of_mem_cycleSteps {step : String × String} (member : step ∈ cycleSteps cycle) :
    step.1 ∈ cycle ∧ step.2 ∈ cycle := by
  obtain ⟨source, target⟩ := List.of_mem_zip member
  refine ⟨source, ?_⟩
  rcases List.mem_append.mp target with later | first
  · exact List.mem_of_mem_drop later
  · exact List.mem_of_mem_take first

/-- The steps of a cycle are those of the chain that comes back to its head. -/
theorem forall_cycleSteps_iff {head : String} {tail : List String} :
    (∀ step ∈ cycleSteps (head :: tail), relation step.1 step.2) ↔
      (head :: tail ++ [head]).IsChain relation := by
  rw [List.isChain_cons_append_singleton_iff_forall₂, List.forall₂_iff_zip, cycleSteps_cons]
  simp

/-- A chain whose last id is related to its first closes to a cycle. -/
theorem forall_cycleSteps_of_isChain (chain : cycle.IsChain relation)
    (atFirst : cycle.head? = some first) (atLast : cycle.getLast? = some last)
    (closing : relation last first) :
    ∀ step ∈ cycleSteps cycle, relation step.1 step.2 := by
  cases cycle with
  | nil => nomatch atFirst
  | cons head tail =>
    obtain rfl := Option.some.inj atFirst
    rw [forall_cycleSteps_iff]
    refine chain.append (.singleton head) ?_
    simp_all

theorem closing_mem_cycleSteps (atFirst : cycle.head? = some first)
    (atLast : cycle.getLast? = some last) : (last, first) ∈ cycleSteps cycle := by
  cases cycle with
  | nil => nomatch atFirst
  | cons head tail =>
    obtain rfl := Option.some.inj atFirst
    have chain : (head :: tail ++ [head]).IsChain fun source target =>
        (source, target) ∈ cycleSteps (head :: tail) :=
      forall_cycleSteps_iff.mp fun step member => member
    exact (List.isChain_append.mp chain).2.2 last atLast head rfl

/-- In a cycle, every id can be reached from every other. -/
theorem reflTransGen_of_cycleSteps (related : ∀ step ∈ cycleSteps cycle, relation step.1 step.2)
    (member : first ∈ cycle) (member' : last ∈ cycle) : Relation.ReflTransGen relation first last := by
  cases cycle with
  | nil => nomatch member
  | cons head tail =>
    have chain := forall_cycleSteps_iff.mp related
    have home : Relation.ReflTransGen relation first head :=
      chain.backwards_concat_induction (Relation.ReflTransGen relation · head) _
        (fun _ _ step rest => .head step rest) .refl first member
    have away : Relation.ReflTransGen relation head last := by
      rcases List.mem_cons.mp member' with rfl | later
      · exact .refl
      · exact chain.cons_induction (Relation.ReflTransGen relation head) _
          (fun _ _ step sofar => .tail sofar step) .refl last (List.mem_append_left _ later)
    exact home.trans away

/-- What each step of a cycle passes on holds of all its ids if it holds of one. -/
theorem forall_mem_of_passed_on {Holds : String → Prop}
    (passedOn : ∀ step ∈ cycleSteps cycle, Holds step.1 → Holds step.2)
    (some : ∃ id ∈ cycle, Holds id) : ∀ id ∈ cycle, Holds id := by
  obtain ⟨first, member, holds⟩ := some
  intro id member'
  have path : Relation.ReflTransGen (fun source target => Holds source → Holds target) first id :=
    reflTransGen_of_cycleSteps passedOn member member'
  clear member'
  induction path with
  | refl => exact holds
  | tail _ step ih => exact step ih

/-- The steps of a simple cycle of two or more ids lead to other ids. -/
theorem cycleSteps_ne (nodup : cycle.Nodup) (long : 2 ≤ cycle.length) :
    ∀ step ∈ cycleSteps cycle, step.1 ≠ step.2 := by
  match cycle, long with
  | head :: second :: rest, _ =>
    have atLast := List.getLast?_eq_some_getLast (List.cons_ne_nil head (second :: rest))
    have inTail : (head :: second :: rest).getLast (List.cons_ne_nil _ _) ∈ second :: rest := by
      rw [List.getLast_cons_cons]
      exact List.getLast_mem _
    refine forall_cycleSteps_of_isChain nodup.isChain rfl atLast ?_
    intro same
    exact (List.nodup_cons.mp nodup).1 (same ▸ inTail)

end CycleSteps

theorem IsCycle.mem_ids {cycle : List String} (isCycle : graph.IsCycle cycle) {id : String}
    (member : id ∈ cycle) : id ∈ graph.ids := by
  rw [← map_fst_cycleSteps cycle] at member
  obtain ⟨step, listed, rfl⟩ := List.mem_map.mp member
  exact (isCycle.linked step listed).1

/-- A cycle is a walk through known nodes that comes back, along loops only if it has one node. -/
theorem IsCycle.closed_walk {cycle : List String} (isCycle : graph.IsCycle cycle) :
    ∃ id places, graph.Walk id places id ∧ places ≠ [] ∧
      ∀ place ∈ places, graph.Known place ∧ ∃ edge, graph.edges[place]? = some edge ∧
        (2 ≤ cycle.length → edge.isLoop = false) := by
  have steps : ∀ step ∈ cycleSteps cycle, ∃ place edge, graph.edges[place]? = some edge ∧
      edge.source = step.1 ∧ edge.target = step.2 ∧ (graph.Known place ∧
        ∃ edge, graph.edges[place]? = some edge ∧ (2 ≤ cycle.length → edge.isLoop = false)) := by
    intro step member
    have linked := isCycle.linked step member
    obtain ⟨place, edge, found, source, target⟩ := linked.exists_place
    refine ⟨place, edge, found, source, target, ⟨edge, found, ?_, ?_⟩, edge, found, ?_⟩
    · exact source ▸ linked.1
    · exact target ▸ linked.2.1
    · intro long
      have apart := cycleSteps_ne isCycle.nodup long step member
      rw [← source, ← target] at apart
      exact decide_eq_false apart
  obtain ⟨head, tail, rfl⟩ := List.exists_cons_of_ne_nil isCycle.nonempty
  obtain ⟨places, walk, nonempty, good⟩ := exists_walk (forall_cycleSteps_iff.mp steps)
  exact ⟨head, places, walk, nonempty, good⟩

/-- A graph without known cycles has no cycle. -/
theorem Acyclic.not_isCycle (acyclic : graph.Acyclic) (cycle : List String) :
    ¬ graph.IsCycle cycle := by
  intro isCycle
  obtain ⟨id, places, walk, nonempty, good⟩ := isCycle.closed_walk
  exact nonempty (acyclic id places walk fun place member => (good place member).1)

/-- What is listed when the edges at some places are picked. -/
theorem mem_pick_iff (edges : List Edge) (pick : Nat → Bool) {edge : Edge} :
    edge ∈ (edges.zipIdx.filter fun item => pick item.2).map (·.1) ↔
      ∃ place, edges[place]? = some edge ∧ pick place = true := by
  simp only [List.mem_map, List.mem_filter, Prod.exists, List.mem_zipIdx_iff_getElem?]
  constructor
  · rintro ⟨_, place, ⟨found, picked⟩, rfl⟩
    exact ⟨place, found, picked⟩
  · rintro ⟨place, found, picked⟩
    exact ⟨edge, place, ⟨found, picked⟩, rfl⟩

theorem mem_without_iff {edge : Edge} :
    edge ∈ (graph.without places).edges ↔
      ∃ place, graph.edges[place]? = some edge ∧ place ∉ places := by
  refine (mem_pick_iff graph.edges fun place => !places.contains place).trans ?_
  simp

end Wiring.Graph
