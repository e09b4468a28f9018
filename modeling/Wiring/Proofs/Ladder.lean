import Mathlib.Algebra.Ring.Parity
import Wiring.Proofs.Line
import Wiring.Proofs.Locality

/-! # The search through a ladder

In a ladder nodes stand in pairs. The first of a pair leads to the second; the second leads back to
the first, and then on to the first of the next pair. Visiting the first node of a pair therefore
enters its partner, finds the cycle of the two, and goes up to the next pair while both are still
on the path. So one visit climbs the whole ladder, and reports the cycles from the bottom up.
-/

namespace Wiring.Graph

namespace Survey

variable {n : Nat} {outgoing : Fin n → List (Arc n)} {path : List (Fin n)} {node : Fin n}
  {arc : Arc n} {pending : List (Arc n)} {survey : Survey n}

private theorem visit_val (fresh : survey.colour node = .unvisited) :
    (visit outgoing path node survey fresh).val =
      (follow outgoing (path ++ [node]) node (outgoing node)
        (survey.paint node .inProgress)).val.paint node .done := by
  rw [visit]

theorem follow_nil : (follow outgoing path node [] survey).val = survey := by
  rw [follow]

theorem follow_cons : (follow outgoing path node (arc :: pending) survey).val =
    (follow outgoing path node pending (along outgoing path node arc survey).val).val := by
  rw [follow]

/-- Once every node was visited, no root is visited any more. -/
theorem foldl_root_of_visited (roots : List (Fin n))
    (visited : ∀ node, survey.colour node ≠ .unvisited) :
    roots.foldl (root outgoing) survey = survey := by
  induction roots with
  | nil => rfl
  | cons node roots ih => rw [List.foldl_cons, root, dif_neg (visited node), ih]

section Pair

variable {partner : Fin n} {up back : Arc n}

/-- Both nodes of a pair are in progress, and the arc back from the second was reported. -/
def paired (path : List (Fin n)) (node partner : Fin n) (back : Arc n) (survey : Survey n) :
    Survey n :=
  ((survey.paint node .inProgress).paint partner .inProgress).report (path ++ [node, partner])
    partner back

private theorem paired_colour {other : Fin n} (notNode : other ≠ node)
    (notPartner : other ≠ partner) :
    (survey.paired path node partner back).colour other = survey.colour other := by
  change ((survey.paint node .inProgress).paint partner .inProgress).colour other = _
  rw [paint_colour, if_neg notPartner, paint_colour, if_neg notNode]

private theorem paired_cycles (notOn : node ∉ path) (apart : node ≠ partner)
    (home : back.target = node) :
    (survey.paired path node partner back).cycles = survey.cycles ++ [[node, partner]] := by
  have before : ∀ other ∈ path, decide (other ≠ node) = true := by
    intro other member
    apply decide_eq_true
    rintro rfl
    exact notOn member
  rw [paired, report, home, if_neg apart, List.dropWhile_append_of_pos before,
    List.dropWhile_cons_of_neg (by simp)]
  rfl

/-- Visiting the first node of a pair enters the second and reports the arc back, before anything
else is visited. -/
theorem visit_pair {onwards : List (Arc n)} (fresh : survey.colour node = .unvisited)
    (leavesNode : outgoing node = [up]) (leavesPartner : outgoing up.target = back :: onwards)
    (freshPartner : survey.colour up.target = .unvisited) (apart : node ≠ up.target)
    (home : back.target = node) :
    (visit outgoing path node survey fresh).val =
      ((follow outgoing (path ++ [node, up.target]) up.target onwards
        (survey.paired path node up.target back)).val.paint up.target .done).paint node .done := by
  have entered : (survey.paint node .inProgress).colour up.target = .unvisited := by
    rw [paint_colour, if_neg apart.symm, freshPartner]
  have waiting : ((survey.paint node .inProgress).paint up.target .inProgress).colour back.target =
      .inProgress := by
    rw [home, paint_colour, if_neg apart, paint_colour, if_pos rfl]
  rw [visit_val, leavesNode, follow_cons, follow_nil, along_unvisited entered, visit_val,
    leavesPartner, follow_cons, along_inProgress waiting, List.append_assoc]
  rfl

end Pair

/-- Nodes in pairs, named by their labels. The first of a pair leads to the second; the second leads
back to the first, and then on to the first of the next pair. -/
structure Ladder (outgoing : Fin n → List (Arc n)) (label : Fin n → String)
    (first second : Nat → String) (count : Nat) : Prop where
  label_injective : Function.Injective label
  first_injective : Function.Injective first
  second_injective : Function.Injective second
  apart : ∀ i j, first i ≠ second j
  up : ∀ {node : Fin n} {i : Nat}, i < count → label node = first i →
    (outgoing node).map (fun arc => label arc.target) = [second i]
  back : ∀ {node : Fin n} {i : Nat}, i < count → label node = second i →
    (outgoing node).map (fun arc => label arc.target) =
      first i :: if i + 1 < count then [first (i + 1)] else []

section Climb

variable (label : Fin n → String) (first second : Nat → String) (count : Nat)

/-- No pair from a place on was visited. -/
def Ahead (path : List (Fin n)) (survey : Survey n) (i : Nat) : Prop :=
  ∀ node j, i ≤ j → j < count → label node ∈ [first j, second j] →
    survey.colour node = .unvisited ∧ node ∉ path

/-- All pairs from a place on were visited: their cycles were found, in order, and their nodes are
done. -/
structure Climbed (i : Nat) (before after : Survey n) : Prop where
  cycles : after.cycles.map (·.map label) = before.cycles.map (·.map label) ++
    (List.range' i (count - i)).map fun j => [first j, second j]
  done : ∀ node j, i ≤ j → j < count → label node ∈ [first j, second j] →
    after.colour node = .done

end Climb

variable {label : Fin n → String} {first second : Nat → String} {count i : Nat}
  {before after : Survey n} {partner : Fin n}

/-- Above the last pair there is nothing to climb. -/
theorem Climbed.refl (top : count ≤ i) (survey : Survey n) :
    Climbed label first second count i survey survey where
  cycles := by
    rw [Nat.sub_eq_zero_of_le top]
    simp
  done node j above below := absurd below (by omega)

/-- Whoever comes back from above a pair leaves it. -/
theorem Climbed.leave (climbed : Climbed label first second count i before after) (node : Fin n) :
    Climbed label first second count i before (after.paint node .done) where
  cycles := climbed.cycles
  done other j above below listed := by
    rw [paint_colour]
    split
    · rfl
    · exact climbed.done other j above below listed

namespace Ladder

variable (ladder : Ladder outgoing label first second count)
include ladder

private theorem ne_of_labels (atNode : label node = first i)
    (atPartner : label partner = second i) :
    node ≠ partner := by
  rintro rfl
  exact ladder.apart i i (atNode.symm.trans atPartner)

/-- What is ahead of a pair is still ahead when its nodes are entered. -/
theorem ahead_succ (ahead : Ahead label first second count path survey i)
    (atNode : label node = first i) (atPartner : label partner = second i)
    (colour : ∀ other, other ≠ node → other ≠ partner →
      after.colour other = survey.colour other) :
    Ahead label first second count (path ++ [node, partner]) after (i + 1) := by
  intro other j above below listed
  obtain ⟨unvisited, notOn⟩ := ahead other j (by omega) below listed
  have later : j ≠ i := by omega
  have apart : other ≠ node ∧ other ≠ partner := by
    rcases List.mem_pair.mp listed with atOther | atOther
    · constructor
      · rintro rfl
        exact later (ladder.first_injective (atOther.symm.trans atNode))
      · rintro rfl
        exact ladder.apart j i (atOther.symm.trans atPartner)
    · constructor
      · rintro rfl
        exact ladder.apart i j (atNode.symm.trans atOther)
      · rintro rfl
        exact later (ladder.second_injective (atOther.symm.trans atPartner))
  refine ⟨(colour other apart.1 apart.2).trans unvisited, ?_⟩
  simp [notOn, apart.1, apart.2]

/-- A pair whose cycle was found is climbed with all that is above it, once its nodes are left. -/
theorem climbed_pair (above : Climbed label first second count (i + 1) before after)
    (inside : i < count) (cycles : before.cycles = survey.cycles ++ [[node, partner]])
    (atNode : label node = first i) (atPartner : label partner = second i)
    (left : after.colour partner = .done) :
    Climbed label first second count i survey (after.paint node .done) where
  cycles := by
    have more : count - i = count - (i + 1) + 1 := by omega
    change after.cycles.map (·.map label) = _
    rw [above.cycles, cycles, more, List.range'_succ]
    simp [atNode, atPartner]
  done other j here below listed := by
    rcases Nat.eq_or_lt_of_le here with rfl | later
    · rw [paint_colour]
      split
      · rfl
      · rename_i apart
        rcases List.mem_pair.mp listed with atOther | atOther
        · exact absurd (ladder.label_injective (atOther.trans atNode.symm)) apart
        · rw [ladder.label_injective (atOther.trans atPartner.symm), left]
    · exact (above.leave node).done other j later below listed

/-- Visiting the first node of a pair climbs from there to the top. -/
theorem visit_climbed (rest : Nat) :
    ∀ {i : Nat} {path : List (Fin n)} {node : Fin n} {survey : Survey n}, i + rest = count →
      i < count → label node = first i → Ahead label first second count path survey i →
      ∀ fresh : survey.colour node = .unvisited,
        Climbed label first second count i survey (visit outgoing path node survey fresh).val := by
  induction rest with
  | zero =>
    intro i _ _ _ total inside
    omega
  | succ rest ih =>
    intro i path node survey total inside atNode ahead fresh
    obtain ⟨up, leavesNode, atPartner⟩ := List.map_eq_singleton_iff.mp (ladder.up inside atNode)
    obtain ⟨back, onwards, leavesPartner, atBack, further⟩ :=
      List.map_eq_cons_iff.mp (ladder.back inside atPartner)
    have home : back.target = node := ladder.label_injective (atBack.trans atNode.symm)
    have apart := ladder.ne_of_labels atNode atPartner
    obtain ⟨_, notOn⟩ := ahead node i (Nat.le_refl i) inside (by simp [atNode])
    obtain ⟨freshPartner, _⟩ := ahead up.target i (Nat.le_refl i) inside (by simp [atPartner])
    -- what is left to do above the pair
    have above : Climbed label first second count (i + 1) (survey.paired path node up.target back)
        (follow outgoing (path ++ [node, up.target]) up.target onwards
          (survey.paired path node up.target back)).val := by
      have ahead' : Ahead label first second count (path ++ [node, up.target])
          (survey.paired path node up.target back) (i + 1) :=
        ladder.ahead_succ ahead atNode atPartner fun _ => paired_colour
      by_cases more : i + 1 < count
      · rw [if_pos more] at further
        obtain ⟨next, rfl, atNext⟩ := List.map_eq_singleton_iff.mp further
        obtain ⟨freshNext, _⟩ := ahead' next.target (i + 1) (Nat.le_refl _) more (by simp [atNext])
        rw [follow_cons, follow_nil, along_unvisited freshNext]
        exact ih (by omega) more atNext ahead' freshNext
      · rw [if_neg more] at further
        rw [List.map_eq_nil_iff.mp further, follow_nil]
        exact .refl (by omega) _
    rw [visit_pair fresh leavesNode leavesPartner freshPartner apart home]
    exact ladder.climbed_pair (above.leave up.target) inside (paired_cycles notOn apart home)
      atNode atPartner (by rw [paint_colour, if_pos rfl])

/-- Searching a ladder whose nodes are numbered from the bottom up finds the cycle of each pair, in
their order. -/
theorem all_cycles (labelled : (List.finRange n).map label =
    (List.range count).flatMap fun i => [first i, second i]) :
    (Survey.all outgoing).cycles.map (·.map label) =
      (List.range count).map fun i => [first i, second i] := by
  rw [Survey.all]
  cases count with
  | zero =>
    rw [List.map_eq_nil_iff.mp labelled]
    rfl
  | succ count =>
    have labels := labelled
    rw [List.range_succ_eq_map, List.flatMap_cons] at labels
    obtain ⟨bottom, roots, numbered, atBottom, _⟩ := List.map_eq_cons_iff.mp labels
    have fresh : (start n).colour bottom = .unvisited := rfl
    have climbed : Climbed label first second (count + 1) 0 (start n)
        (visit outgoing [] bottom (start n) fresh).val :=
      ladder.visit_climbed (count + 1) (Nat.zero_add _) (Nat.zero_lt_succ _) atBottom
        (fun _ _ _ _ _ => ⟨rfl, List.not_mem_nil⟩) fresh
    have visited : ∀ node, (visit outgoing [] bottom (start n) fresh).val.colour node ≠
        .unvisited := by
      intro node
      have listed : label node ∈ (List.finRange n).map label :=
        List.mem_map_of_mem (List.mem_finRange node)
      rw [labelled] at listed
      obtain ⟨i, member, atNode⟩ := List.mem_flatMap.mp listed
      rw [climbed.done node i (Nat.zero_le i) (List.mem_range.mp member) atNode]
      decide
    rw [numbered, List.foldl_cons, root, dif_pos fresh, foldl_root_of_visited _ visited,
      climbed.cycles, List.range_eq_range']
    rfl

end Ladder

end Survey

private theorem flatMap_range_eq {α : Type} {blocks : Nat → List α} {i count : Nat}
    (inside : i < count)
    (others : ∀ j, j ≠ i → blocks j = []) : (List.range count).flatMap blocks = blocks i := by
  induction count with
  | zero => omega
  | succ count ih =>
    rw [List.range_succ, List.flatMap_append, List.flatMap_singleton]
    rcases Nat.lt_succ_iff_lt_or_eq.mp inside with earlier | rfl
    · rw [ih earlier, others count (by omega), List.append_nil]
    · have before : (List.range i).flatMap blocks = [] := by
        refine List.flatMap_eq_nil_iff.mpr fun j member => others j ?_
        have := List.mem_range.mp member
        omega
      rw [before, List.nil_append]

/-- Names from two rows in turn. -/
def alternate (first second : Nat → String) (k : Nat) : String :=
  if k % 2 = 0 then first (k / 2) else second (k / 2)

section Alternate

variable {first second : Nat → String}

theorem alternate_even (first second : Nat → String) (i : Nat) :
    alternate first second (2 * i) = first i := by
  rw [alternate, if_pos (by omega), Nat.mul_div_cancel_left i (by omega)]

theorem alternate_odd (first second : Nat → String) (i : Nat) :
    alternate first second (2 * i + 1) = second i := by
  rw [alternate, if_neg (by omega)]
  congr 1
  omega

theorem flatMap_pair_eq (first second : Nat → String) (count : Nat) :
    (List.range count).flatMap (fun i => [first i, second i]) =
      (List.range (2 * count)).map (alternate first second) := by
  induction count with
  | zero => rfl
  | succ count ih =>
    rw [List.range_succ, List.flatMap_append, ih, Nat.mul_succ, List.range_succ, List.range_succ]
    simp [alternate_even, alternate_odd]

theorem alternate_injective (first_injective : Function.Injective first)
    (second_injective : Function.Injective second) (apart : ∀ i j, first i ≠ second j) :
    Function.Injective (alternate first second) := by
  intro k l same
  unfold alternate at same
  split at same
  · split at same
    · have := first_injective same
      omega
    · exact absurd same (apart _ _)
  · split at same
    · exact absurd same.symm (apart _ _)
    · have := second_injective same
      omega

end Alternate

section Labels

variable {graph : Graph}

/-- Where no id is repeated, every node is the one that its id stands for. -/
theorem lastIndex?_get (nodup : graph.ids.Nodup) (node : Fin graph.ids.length) :
    lastIndex? (graph.ids.get node) graph.ids = some node := by
  obtain ⟨index, found⟩ := exists_lastIndex? (List.get_mem graph.ids node)
  rw [found, List.nodup_iff_injective_get.mp nodup (get_of_lastIndex? found)]

/-- The arcs of a node lead where the edges from its id to known nodes lead. -/
theorem map_get_arcs (nodup : graph.ids.Nodup) (node : Fin graph.ids.length) :
    (graph.arcs.get node).map (fun arc => graph.ids.get arc.target) =
      (graph.edges.filter fun edge =>
        edge.source = graph.ids.get node ∧ edge.target ∈ graph.ids).map (·.target) := by
  have found (target : String) (known : target ∈ graph.ids) :
      (lastIndex? target graph.ids).map graph.ids.get = some target := by
    obtain ⟨index, found⟩ := exists_lastIndex? known
    rw [found, Option.map_some, get_of_lastIndex? found]
  let test (edge : Edge) : Bool := edge.source = graph.ids.get node ∧ edge.target ∈ graph.ids
  have unplaced : (graph.resolved (graph.ids.get node)).map Prod.fst = graph.edges.filter test := by
    change (graph.edges.zipIdx.filter (test ∘ Prod.fst)).map Prod.fst = _
    rw [← List.filter_map, List.zipIdx_map_fst]
  calc
    (graph.arcs.get node).map (fun arc => graph.ids.get arc.target)
      = ((graph.arcs.get node).map (·.target)).map graph.ids.get := (List.map_map ..).symm
    _ = ((graph.resolved (graph.ids.get node)).map (·.1.target)).filterMap fun target =>
          (lastIndex? target graph.ids).map graph.ids.get := by
        rw [map_target_arcs graph (lastIndex?_get nodup node), List.map_filterMap]
    _ = (graph.resolved (graph.ids.get node)).map (·.1.target) := by
        rw [List.filterMap_congr (g := some), List.filterMap_some]
        intro target listed
        obtain ⟨item, member, rfl⟩ := List.mem_map.mp listed
        exact found _ (of_decide_eq_true (List.mem_filter.mp member).2).2
    _ = (graph.edges.filter test).map (·.target) := by
        rw [← unplaced, List.map_map]
        rfl

end Labels

/-- The nodes of a graph are a ladder: they stand in pairs, and its edges lead from the first of a
pair to the second, back again, and on to the first of the next pair. -/
structure Laddered (graph : Graph) (first second : Nat → String) (count : Nat) : Prop where
  first_injective : Function.Injective first
  second_injective : Function.Injective second
  apart : ∀ i j, first i ≠ second j
  ids : graph.ids = (List.range count).flatMap fun i => [first i, second i]
  ends : graph.edges.map (fun edge => (edge.source, edge.target)) =
    (List.range count).flatMap fun i => (first i, second i) :: (second i, first i) ::
      if i + 1 < count then [(second i, first (i + 1))] else []

/-- An edge with a mark, if it leads back from the second of a pair to the first. -/
def markBack (first second : Nat → String) (count : Nat) (edge : Edge) : Edge :=
  if ∃ i < count, edge.source = second i ∧ edge.target = first i then
    { edge with circular := some true }
  else edge

namespace Laddered

variable {graph : Graph} {first second : Nat → String} {count : Nat}
  (laddered : graph.Laddered first second count)
include laddered

private theorem ids_eq : graph.ids = (List.range (2 * count)).map (alternate first second) := by
  rw [laddered.ids, flatMap_pair_eq]

private theorem ids_nodup : graph.ids.Nodup := by
  rw [laddered.ids_eq]
  exact List.nodup_range.map (alternate_injective laddered.first_injective
    laddered.second_injective laddered.apart)

theorem mem_ids_iff {id : String} : id ∈ graph.ids ↔ ∃ i < count, id = first i ∨ id = second i := by
  simp [laddered.ids]

/-- The edges of a ladder, by their ends. -/
theorem mem_ends_iff {source target : String} :
    (∃ edge ∈ graph.edges, edge.source = source ∧ edge.target = target) ↔
      ∃ i < count, source = first i ∧ target = second i ∨ source = second i ∧ target = first i ∨
        i + 1 < count ∧ source = second i ∧ target = first (i + 1) := by
  have listed : (∃ edge ∈ graph.edges, edge.source = source ∧ edge.target = target) ↔
      (source, target) ∈ graph.edges.map fun edge => (edge.source, edge.target) := by
    simp
  rw [listed, laddered.ends, List.mem_flatMap]
  refine exists_congr fun i => and_congr List.mem_range ?_
  by_cases more : i + 1 < count <;> simp [more]

theorem mem_edges {edge : Edge} (listed : edge ∈ graph.edges) :
    ∃ i < count, edge.source = first i ∧ edge.target = second i ∨
      edge.source = second i ∧ edge.target = first i ∨
      i + 1 < count ∧ edge.source = second i ∧ edge.target = first (i + 1) :=
  laddered.mem_ends_iff.mp ⟨edge, listed, rfl, rfl⟩

/-- The edges from an id, in the order of the pairs. -/
theorem targets_eq (node : Fin graph.ids.length) :
    (graph.arcs.get node).map (fun arc => graph.ids.get arc.target) =
      (List.range count).flatMap fun j => (((first j, second j) :: (second j, first j) ::
        if j + 1 < count then [(second j, first (j + 1))] else []).filter fun ends =>
          ends.1 = graph.ids.get node).map (·.2) := by
  have known : ∀ edge ∈ graph.edges, edge.target ∈ graph.ids := by
    intro edge listed
    obtain ⟨i, inside, between⟩ := laddered.mem_edges listed
    refine laddered.mem_ids_iff.mpr ?_
    rcases between with ⟨_, atTarget⟩ | ⟨_, atTarget⟩ | ⟨more, _, atTarget⟩
    · exact ⟨i, inside, .inr atTarget⟩
    · exact ⟨i, inside, .inl atTarget⟩
    · exact ⟨i + 1, more, .inl atTarget⟩
  have all : (graph.edges.filter fun edge =>
      edge.source = graph.ids.get node ∧ edge.target ∈ graph.ids) =
        graph.edges.filter fun edge => edge.source = graph.ids.get node :=
    List.filter_congr fun edge listed => by simp [known edge listed]
  have paired : (graph.edges.filter fun edge => edge.source = graph.ids.get node).map (·.target) =
      ((graph.edges.map fun edge => (edge.source, edge.target)).filter fun ends =>
        ends.1 = graph.ids.get node).map (·.2) := by
    rw [List.filter_map, List.map_map]
    rfl
  rw [map_get_arcs laddered.ids_nodup, all, paired, laddered.ends, List.filter_flatMap,
    List.map_flatMap]

/-- The arcs of the graph are a ladder. -/
theorem ladder : Survey.Ladder graph.arcs.get graph.ids.get first second count where
  label_injective := List.nodup_iff_injective_get.mp laddered.ids_nodup
  first_injective := laddered.first_injective
  second_injective := laddered.second_injective
  apart := laddered.apart
  up {node i} inside atNode := by
    have own (j : Nat) : (first j = first i) ↔ j = i := laddered.first_injective.eq_iff
    have other (j : Nat) : second j ≠ first i := (laddered.apart i j).symm
    rw [laddered.targets_eq, atNode, flatMap_range_eq inside]
    · by_cases more : i + 1 < count <;> simp [more, other]
    · intro j apart
      by_cases more : j + 1 < count <;> simp [more, own, other, apart]
  back {node i} inside atNode := by
    have own (j : Nat) : (second j = second i) ↔ j = i := laddered.second_injective.eq_iff
    rw [laddered.targets_eq, atNode, flatMap_range_eq inside]
    · by_cases more : i + 1 < count <;> simp [more, laddered.apart]
    · intro j apart
      by_cases more : j + 1 < count <;> simp [more, own, laddered.apart, apart]

/-- The cycles of a ladder are its pairs, in order. -/
theorem cycles_eq : graph.circularity.cycles =
    (List.range count).map fun i => [first i, second i] := by
  have labelled : (List.finRange graph.ids.length).map graph.ids.get =
      (List.range count).flatMap fun i => [first i, second i] := by
    rw [List.map_get_finRange, laddered.ids]
  rw [← laddered.ladder.all_cycles labelled, (Search.all_mirrors graph.arcs).cycles]
  rfl

/-- A circular edge leads back from the second of a pair to the first. -/
theorem of_mem_circular {place : Nat} {edge : Edge} (found : graph.edges[place]? = some edge)
    (circular : place ∈ graph.circularity.circular) :
    ∃ i < count, edge.source = second i ∧ edge.target = first i := by
  have noLoop : edge.isLoop = false := by
    obtain ⟨i, _, between⟩ := laddered.mem_edges (List.mem_of_getElem? found)
    refine decide_eq_false ?_
    rcases between with ⟨source, target⟩ | ⟨source, target⟩ | ⟨_, source, target⟩
    · rw [source, target]
      exact laddered.apart i i
    · rw [source, target]
      exact (laddered.apart i i).symm
    · rw [source, target]
      exact (laddered.apart (i + 1) i).symm
  obtain ⟨closings, edges, cycles, _⟩ := exists_closings graph
  rw [edges] at circular
  obtain ⟨closing, member, rfl⟩ := List.mem_map.mp circular
  -- the edge closes a cycle that is listed, and so a pair
  have listed : ringIds closing ∈ graph.circularity.cycles := by
    rw [cycles]
    refine List.mem_map_of_mem (List.mem_filter.mpr ⟨member, ?_⟩)
    rw [← loopAt_closing, loopAt_eq found, noLoop]
    rfl
  rw [laddered.cycles_eq] at listed
  obtain ⟨i, inside, pair⟩ := List.mem_map.mp listed
  obtain ⟨closed, found', atLast, atFirst⟩ := closes_ringIds closing
  obtain rfl := Option.some.inj (found.symm.trans found')
  rw [← pair] at atLast atFirst
  exact ⟨i, List.mem_range.mp inside, (Option.some.inj atLast).symm, (Option.some.inj atFirst).symm⟩

/-- The circular edges of a ladder are those that lead back. -/
theorem mem_circular_iff {place : Nat} {edge : Edge} (found : graph.edges[place]? = some edge) :
    place ∈ graph.circularity.circular ↔
      ∃ i < count, edge.source = second i ∧ edge.target = first i := by
  refine ⟨laddered.of_mem_circular found, ?_⟩
  rintro ⟨i, inside, source, target⟩
  obtain ⟨up, listed, atFirst, atSecond⟩ :=
    laddered.mem_ends_iff.mpr ⟨i, inside, .inl ⟨rfl, rfl⟩⟩
  obtain ⟨place', found'⟩ := List.mem_iff_getElem?.mp listed
  have firstKnown : first i ∈ graph.ids := laddered.mem_ids_iff.mpr ⟨i, inside, .inl rfl⟩
  have secondKnown : second i ∈ graph.ids := laddered.mem_ids_iff.mpr ⟨i, inside, .inr rfl⟩
  have back : graph.Walk up.target [place] up.source := by
    rw [atFirst, atSecond, ← source, ← target]
    exact .cons found (.nil _)
  -- one of the two edges of a pair is circular, and it is not the one that leads up
  obtain ⟨other, member, circular⟩ := (Walk.cons found' back).meets_circular (by
      intro other member
      rcases List.mem_pair.mp member with rfl | rfl
      · exact ⟨up, found', atFirst ▸ firstKnown, atSecond ▸ secondKnown⟩
      · exact ⟨edge, found, source ▸ secondKnown, target ▸ firstKnown⟩) (List.cons_ne_nil _ _)
  rcases List.mem_pair.mp member with rfl | rfl
  · obtain ⟨j, _, atSource, _⟩ := laddered.of_mem_circular found' circular
    exact absurd (atFirst.symm.trans atSource) (laddered.apart i j)
  · exact circular

/-- Marking the cycles of a ladder marks the edges that lead back. -/
theorem markCycles_eq : graph.markCycles =
    { nodes := graph.nodes
      edges := graph.edges.map (markBack first second count)
      cycles := (List.range count).map fun i => [first i, second i] } := by
  have edges : graph.markCycles.edges = graph.edges.map (markBack first second count) := by
    refine List.ext_getElem? fun place => ?_
    rw [getElem?_markCycles, List.getElem?_map]
    cases found : graph.edges[place]? with
    | none => rfl
    | some edge =>
      rw [Option.map_some, Option.map_some, markBack]
      simp only [laddered.mem_circular_iff found]
  rw [← edges, ← laddered.cycles_eq]
  rfl

/-- The nodes of a ladder stand in a line. -/
theorem inLine : graph.InLine (alternate first second) (2 * count) where
  ids := laddered.ids_eq
  linked k inside := by
    rcases Nat.even_or_odd' k with ⟨i, rfl | rfl⟩
    · rw [alternate_even, alternate_odd]
      refine ⟨laddered.mem_ids_iff.mpr ⟨i, by omega, .inl rfl⟩,
        laddered.mem_ids_iff.mpr ⟨i, by omega, .inr rfl⟩, ?_⟩
      exact laddered.mem_ends_iff.mpr ⟨i, by omega, .inl ⟨rfl, rfl⟩⟩
    · have even : 2 * i + 1 + 1 = 2 * (i + 1) := by omega
      rw [even, alternate_odd, alternate_even]
      refine ⟨laddered.mem_ids_iff.mpr ⟨i, by omega, .inr rfl⟩,
        laddered.mem_ids_iff.mpr ⟨i + 1, by omega, .inl rfl⟩, ?_⟩
      exact laddered.mem_ends_iff.mpr ⟨i, by omega, .inr (.inr ⟨by omega, rfl, rfl⟩)⟩
  near edge listed := by
    obtain ⟨i, inside, between⟩ := laddered.mem_edges listed
    rcases between with ⟨source, target⟩ | ⟨source, target⟩ | ⟨more, source, target⟩
    · refine ⟨2 * i, by omega, 2 * i + 1, by omega, ?_, ?_⟩
      · rw [source, alternate_even]
      · rw [target, alternate_odd]
    · refine ⟨2 * i + 1, by omega, 2 * i, by omega, ?_, ?_⟩
      · rw [source, alternate_odd]
      · rw [target, alternate_even]
    · refine ⟨2 * i + 1, by omega, 2 * (i + 1), by omega, ?_, ?_⟩
      · rw [source, alternate_odd]
      · rw [target, alternate_even]

end Laddered

end Wiring.Graph
