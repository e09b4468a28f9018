import Wiring.Proofs.Search.Ledger
import Wiring.Proofs.Search.Lookups

/-! # The search goes through everything once

The search keeps colours, positions, stack and path in step at every moment, and each turn of its
loop over the stack finishes a node or examines one more edge. So it ends, whatever the graph: with
every node entered once and left once, and every edge between known nodes examined once.
-/

namespace Wiring.Graph

namespace Machine

section Course

variable (ids : List String) (outgoing : Array (List (Nat × Nat)))

/-- The state after a step by numbers, with the roots still to come. -/
def advance? (roots : List Nat) (machine : Machine) : Option (List Nat × Machine) :=
  match machine.stack, roots with
  | (node, position) :: below, _ =>
    (machine.step? ids outgoing node position below).map (roots, ·)
  | [], root :: later => do
    match ← machine.colours[root]? with
    | .unvisited => return (later, ← machine.enter? root)
    | _ => return (later, machine)
  | [], [] => some ([], machine)

/-- The state after a number of steps by numbers; fails if a look-up does. -/
def course? : Nat → Option (List Nat × Machine)
  | 0 => some (List.range ids.length, start ids.length)
  | step + 1 => do
    let (roots, machine) ← course? step
    machine.advance? ids outgoing roots

end Course

/-- A number is that of a node that is not unvisited. -/
def Visited (machine : Machine) (node : Nat) : Prop :=
  ∃ colour, machine.colours[node]? = some colour ∧ colour ≠ .unvisited

/-- Stack, path, positions and colours agree with each other and with the arcs that were passed: the
path is the stack from its foot on and has no node twice, positions are those on the path, the nodes
in progress are those on the path, and neither a passed arc nor one of a finished node leads to an
unvisited node. -/
structure InStep (outgoing : Array (List (Nat × Nat))) (machine : Machine) : Prop where
  path : machine.path.toList = (machine.stack.map (·.1)).reverse
  simple : machine.path.toList.Nodup
  positions : ∀ node position : Nat,
    machine.positions node = some position ↔ machine.path.toList[position]? = some node
  colours : ∀ node : Nat, machine.colours[node]? = some .inProgress ↔ node ∈ machine.path.toList
  passed : ∀ frame ∈ machine.stack, ∃ arcs, outgoing[frame.1]? = some arcs ∧
    frame.2 ≤ arcs.length ∧ ∀ arc ∈ arcs.take frame.2, machine.Visited arc.2
  done : ∀ (node : Nat) (arcs : List (Nat × Nat)), machine.colours[node]? = some .done →
    outgoing[node]? = some arcs → ∀ arc ∈ arcs, machine.Visited arc.2

end Machine

section Numbers

variable {ids : List String} {arcs : Arcs ids.length} {search : Search ids.length} {step : Nat}

private theorem advance?_plain (reachable : search.Reachable arcs) (roots : List (Fin ids.length)) :
    (search.plain ids arcs).advance? ids (plainArcs arcs) (roots.map Fin.val) =
      some ((Search.advance arcs roots search).1.map Fin.val,
        (Search.advance arcs roots search).2.plain ids arcs) := by
  cases stack : search.stack with
  | cons top below =>
    have framed : (search.plain ids arcs).stack =
        (top.node.val, (arcs.get top.node).length - top.pending.length) :: plainStack arcs below :=
      congrArg (plainStack arcs) stack
    rw [Search.advance_step stack]
    simp only [Machine.advance?, framed, step?_plain reachable stack, Option.map_some]
  | nil =>
    have idle : (search.plain ids arcs).stack = [] := congrArg (plainStack arcs) stack
    cases roots with
    | nil => simp [Machine.advance?, Search.advance, idle, stack]
    | cons root later =>
      rw [Search.advance_root stack]
      simp only [Machine.advance?, idle, List.map_cons, getElem?_colours, Option.bind_eq_bind,
        Option.bind_some]
      cases search.marks.get root with
      | unvisited => simp [Mark.colour, enter?_plain]
      | onPath position => simp [Mark.colour]
      | finished => simp [Mark.colour]

/-- No look-up ever fails, and the search by numbers goes through the states of the search. -/
theorem course?_plain (arcs : Arcs ids.length) (step : Nat) :
    Machine.course? ids (plainArcs arcs) step =
      some ((Search.course arcs step).1.map Fin.val,
        (Search.moment arcs step).plain ids arcs) := by
  induction step with
  | zero =>
    have start : (Search.moment arcs 0).plain ids arcs = Machine.start ids.length := plain_start
    rw [Machine.course?, start]
    simp only [Search.course, List.map_coe_finRange_eq_range]
  | succ step ih =>
    simp only [Machine.course?, ih, Option.bind_eq_bind, Option.bind_some]
    exact advance?_plain (Search.moment_reachable arcs step) _

private theorem plainPositions_eq_some_iff {n : Nat} {marks : Vector Mark n} {node position : Nat} :
    plainPositions marks node = some position ↔
      ∃ index : Fin n, index.val = node ∧ marks.get index = .onPath position := by
  constructor
  · intro found
    unfold plainPositions at found
    split at found
    · rename_i known
      refine ⟨⟨node, known⟩, rfl, ?_⟩
      cases mark : marks.get ⟨node, known⟩ with
      | unvisited => simp [mark, Mark.position?] at found
      | onPath other => simpa [mark, Mark.position?] using found
      | finished => simp [mark, Mark.position?] at found
    · simp at found
  · rintro ⟨index, rfl, mark⟩
    rw [plainPositions_apply, mark]
    rfl

private theorem getElem?_colours_eq_some_iff {node : Nat} {colour : Colour} :
    (search.plain ids arcs).colours[node]? = some colour ↔
      ∃ index : Fin ids.length, index.val = node ∧ (search.marks.get index).colour = colour := by
  constructor
  · intro found
    have known : node < ids.length := by
      have within := (Array.getElem?_eq_some_iff.mp found).1
      simpa [Search.plain] using within
    have here :
        (search.plain ids arcs).colours[(⟨node, known⟩ : Fin ids.length).val]? = some colour :=
      found
    rw [getElem?_colours] at here
    exact ⟨⟨node, known⟩, rfl, Option.some.inj here⟩
  · rintro ⟨index, rfl, rfl⟩
    exact getElem?_colours search index

private theorem colour_eq_unvisited_iff {mark : Mark} :
    mark.colour = .unvisited ↔ mark = .unvisited := by
  cases mark <;> simp [Mark.colour]

private theorem colour_eq_inProgress_iff {mark : Mark} :
    mark.colour = .inProgress ↔ ∃ position, mark = .onPath position := by
  cases mark <;> simp [Mark.colour]

private theorem colour_eq_done_iff {mark : Mark} : mark.colour = .done ↔ mark = .finished := by
  cases mark <;> simp [Mark.colour]

private theorem visited_plain {node : Fin ids.length}
    (visited : search.marks.get node ≠ .unvisited) :
    (search.plain ids arcs).Visited node :=
  ⟨_, getElem?_colours search node, fun same => visited (colour_eq_unvisited_iff.mp same)⟩

theorem toList_path_plain (search : Search ids.length) :
    (search.plain ids arcs).path.toList = search.path.toList.map Fin.val := by
  simp [Search.plain]

/-- The arcs that were passed in a frame are those that are not pending. -/
theorem take_passed {frame : Frame ids.length} {passed : List (Arc ids.length)}
    (divides : passed ++ frame.pending = arcs.get frame.node) :
    (arcs.get frame.node).take ((arcs.get frame.node).length - frame.pending.length) = passed := by
  rw [← divides, List.length_append, Nat.add_sub_cancel, List.take_left]

/-- A passed arc leads to a visited node: it is no longer pending, as no arc occurs twice. -/
theorem moment_passed (numbered : Search.Numbered arcs) {frame : Frame ids.length}
    {passed : List (Arc ids.length)} {arc : Arc ids.length}
    (standing : frame ∈ (Search.moment arcs step).stack)
    (divides : passed ++ frame.pending = arcs.get frame.node) (member : arc ∈ passed) :
    (Search.moment arcs step).marks.get arc.target ≠ .unvisited := by
  have leaves : arc ∈ arcs.get frame.node := divides ▸ List.mem_append_left _ member
  have nodup : (passed ++ frame.pending).Nodup := divides ▸ (numbered.nodup frame.node).of_map
  rcases (Search.moment_examined arcs step).standing frame standing arc leaves with waits | judged
  · exact absurd waits (List.disjoint_of_nodup_append nodup member)
  · exact judged.visited

/-- At every moment stack, path, positions and colours agree. -/
theorem moment_inStep (numbered : Search.Numbered arcs) (step : Nat) :
    ((Search.moment arcs step).plain ids arcs).InStep (plainArcs arcs) := by
  have reachable := Search.moment_reachable arcs step
  have traced := reachable.traced
  refine ⟨?_, ?_, ?_, ?_, ?_, ?_⟩
  · rw [toList_path_plain, traced.path, List.map_reverse, List.map_map]
    simp only [Search.plain, plainStack, List.map_map]
    rfl
  · rw [toList_path_plain]
    exact traced.nodup.map Fin.val_injective
  · intro node position
    rw [toList_path_plain, List.getElem?_map, Option.map_eq_some_iff]
    refine plainPositions_eq_some_iff.trans (exists_congr fun index => ?_)
    rw [traced.position, and_comm]
  · intro node
    rw [toList_path_plain, List.mem_map, getElem?_colours_eq_some_iff]
    refine exists_congr fun index => ?_
    rw [colour_eq_inProgress_iff, traced.mem_path_iff, and_comm]
  · intro item listed
    obtain ⟨frame, standing, rfl⟩ := List.mem_map.mp listed
    obtain ⟨passed, divides⟩ := reachable.ordered.nested.pending_suffix standing
    refine ⟨_, getElem?_plainArcs arcs frame.node, by simp, ?_⟩
    rw [← List.map_take, take_passed divides]
    intro item listed
    obtain ⟨arc, member, rfl⟩ := List.mem_map.mp listed
    exact visited_plain (moment_passed numbered standing divides member)
  · intro node out black listed
    obtain ⟨index, rfl, mark⟩ := getElem?_colours_eq_some_iff.mp black
    rw [getElem?_plainArcs] at listed
    obtain rfl := Option.some.inj listed
    intro item listed
    obtain ⟨arc, leaves, rfl⟩ := List.mem_map.mp listed
    have finished := colour_eq_done_iff.mp mark
    have examined := (Search.moment_examined arcs step).finished index finished arc leaves
    exact visited_plain examined.visited

end Numbers

namespace Search

variable {n : Nat} {arcs : Arcs n} {search : Search n} {roots : List (Fin n)}

/-- Between two roots nothing is under way: a node is finished or was not visited at all. -/
theorem Traced.between (traced : Traced search) (idle : search.stack = []) :
    search.path.toList = [] ∧
      ∀ node, search.marks.get node = .unvisited ∨ search.marks.get node = .finished := by
  have empty : search.path.toList = [] := by rw [traced.path, idle, List.map_nil, List.reverse_nil]
  refine ⟨empty, fun node => ?_⟩
  cases mark : search.marks.get node with
  | unvisited => exact .inl rfl
  | onPath position =>
    have member := traced.mem_path_iff.mpr ⟨position, mark⟩
    rw [empty] at member
    exact absurd member List.not_mem_nil
  | finished => exact .inr rfl

/-- After each root the stack and the path are empty, and the roots so far are finished. -/
theorem visits_between (arcs : Arcs n) (roots : List (Fin n)) :
    let search := roots.foldl (visit arcs) (start n)
    search.stack = [] ∧ search.path.toList = [] ∧
      (∀ node, search.marks.get node = .unvisited ∨ search.marks.get node = .finished) ∧
      ∀ root ∈ roots, search.marks.get root = .finished := by
  intro search
  have idle : search.stack = [] := visits_idle roots rfl
  have reachable : Reachable arcs search :=
    visits_preserve (fun move sofar => .move sofar move) roots rfl .start
  obtain ⟨path, marks⟩ := reachable.traced.between idle
  refine ⟨idle, path, marks, fun root listed => ?_⟩
  exact (marks root).resolve_left (visits_visited roots rfl listed)

/-- Among all arcs no edge occurs twice. -/
theorem Numbered.nodup_all (numbered : Numbered arcs) :
    (((List.finRange n).flatMap arcs.get).map (·.edge)).Nodup := by
  rw [List.map_flatMap, List.nodup_flatMap]
  refine ⟨fun node _ => numbered.nodup node, (List.nodup_finRange n).imp ?_⟩
  intro first second apart place here there
  obtain ⟨arc, leaves, rfl⟩ := List.mem_map.mp here
  obtain ⟨twin, leaves', same⟩ := List.mem_map.mp there
  exact apart (numbered.apart leaves leaves' same.symm)

end Search

/-- The arcs of a graph are its edges between known nodes. -/
theorem mem_all_arcs_iff {graph : Graph} {place : Nat} :
    place ∈ ((List.finRange graph.ids.length).flatMap graph.arcs.get).map (·.edge) ↔
      graph.Known place := by
  simp only [List.mem_map, List.mem_flatMap, List.mem_finRange, true_and]
  constructor
  · rintro ⟨arc, ⟨node, leaves⟩, rfl⟩
    obtain ⟨edge, represents⟩ := mem_arcs_iff.mp leaves
    exact ⟨edge, represents.found, represents.get_source ▸ List.get_mem ..,
      represents.get_target ▸ List.get_mem ..⟩
  · rintro ⟨edge, found, sourceKnown, targetKnown⟩
    obtain ⟨source, atSource⟩ := exists_lastIndex? sourceKnown
    obtain ⟨target, atTarget⟩ := exists_lastIndex? targetKnown
    exact ⟨⟨place, target⟩, ⟨source, mem_arcs_iff.mpr ⟨edge, found, atSource, atTarget⟩⟩, rfl⟩

/-- The search exhausts every graph. At each moment its structures are in step, also when they are
kept apart and every look-up may fail; the nodes on the stack are those that were entered and not
left. While something is on the stack, a moment finishes the node on top or examines one more of its
edges. After each root the path is empty and what was visited is finished. At the end every node was
entered once, left once and is finished, and every edge between known nodes was examined once. -/
theorem search_exhausts (graph : Graph) :
    let arcs := graph.arcs
    let last := Search.duration arcs
    outgoing? graph.ids graph.edges = some (plainArcs arcs) ∧
    (∀ step, ∃ machine, Machine.course? graph.ids (plainArcs arcs) step =
        some ((Search.course arcs step).1.map Fin.val, machine) ∧
      machine = (Search.moment arcs step).plain graph.ids arcs ∧
      machine.InStep (plainArcs arcs)) ∧
    (∀ step, (∀ node, node ∈ Search.entered arcs step ↔
        (Search.moment arcs step).marks.get node ≠ .unvisited) ∧
      (Search.entered arcs step).Perm
        (Search.left arcs step ++ (Search.moment arcs step).stack.map (·.node))) ∧
    (∀ step top below, (Search.moment arcs step).stack = top :: below →
      (Search.left arcs (step + 1) = Search.left arcs step ++ [top.node] ∧
        Search.examined arcs (step + 1) = Search.examined arcs step ∧
        (Search.moment arcs (step + 1)).marks.get top.node = .finished) ∨
      ∃ arc ∈ top.pending, Search.left arcs (step + 1) = Search.left arcs step ∧
        Search.examined arcs (step + 1) = Search.examined arcs step ++ [arc]) ∧
    (∀ roots, roots <+: List.finRange graph.ids.length →
      let search := roots.foldl (Search.visit arcs) (Search.start graph.ids.length)
      search.stack = [] ∧ search.path.toList = [] ∧
        (∀ node, search.marks.get node = .unvisited ∨ search.marks.get node = .finished) ∧
        ∀ root ∈ roots, search.marks.get root = .finished) ∧
    Search.course arcs last = ([], Search.all arcs) ∧
    (∀ node, (Search.all arcs).marks.get node = .finished) ∧
    (Search.entered arcs last).Perm (List.finRange graph.ids.length) ∧
    (Search.left arcs last).Perm (List.finRange graph.ids.length) ∧
    ((Search.examined arcs last).map (·.edge)).Nodup ∧
    ∀ place, place ∈ (Search.examined arcs last).map (·.edge) ↔ graph.Known place := by
  intro arcs last
  have numbered := arcs_numbered graph.ids graph.edges
  obtain ⟨entered, left, examined⟩ := Search.ledger_duration arcs
  have edges := examined.map (·.edge)
  refine ⟨outgoing?_eq graph.edges, fun step => ?_,
    fun step => ⟨fun _ => Search.mem_entered_iff, Search.entered_perm arcs step⟩,
    fun _ _ _ => Search.moment_progress, fun roots _ => Search.visits_between arcs roots,
    Search.course_duration arcs, Search.all_finished arcs, entered, left, ?_, fun place => ?_⟩
  · exact ⟨_, course?_plain arcs step, rfl, moment_inStep numbered step⟩
  · exact edges.nodup_iff.mpr numbered.nodup_all
  · exact edges.mem_iff.trans mem_all_arcs_iff

private theorem moment_knot : (Search.moment knot.arcs 1).stack =
    [⟨⟨0, Nat.zero_lt_succ 2⟩, [⟨0, ⟨2, Nat.lt_succ_self 2⟩⟩]⟩] := by decide +kernel

theorem search_exhausts_knot :
    (∃ top below, (Search.moment knot.arcs 1).stack = top :: below ∧
      (Search.left knot.arcs 2).length + (Search.examined knot.arcs 2).length =
        (Search.left knot.arcs 1).length + (Search.examined knot.arcs 1).length + 1) ∧
    [] <+: List.finRange knot.ids.length ∧
    4 ∈ (Search.examined knot.arcs (Search.duration knot.arcs)).map (·.edge) ∧
    3 ∉ (Search.examined knot.arcs (Search.duration knot.arcs)).map (·.edge) := by
  obtain ⟨_, _, _, progress, _, _, _, _, _, _, known⟩ := search_exhausts knot
  refine ⟨⟨_, _, moment_knot, ?_⟩, List.nil_prefix, ?_, ?_⟩
  · rcases progress 1 _ _ moment_knot with ⟨more, same, _⟩ | ⟨_, _, same, more⟩
    · rw [more, same, List.length_append, List.length_singleton]
      omega
    · rw [more, same, List.length_append, List.length_singleton]
      omega
  · exact (known 4).mpr ⟨⟨"B", "A", none, none⟩, rfl, by decide, by decide⟩
  · rw [known]
    rintro ⟨edge, found, _, targetKnown⟩
    obtain rfl := Option.some.inj found
    exact absurd targetKnown (by decide)

end Wiring.Graph
