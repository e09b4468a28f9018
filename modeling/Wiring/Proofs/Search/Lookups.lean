import Mathlib.Data.List.FinRange
import Mathlib.Logic.Function.Basic
import Wiring.Proofs.Search.Settled
import Wiring.Proofs.Search.Survey

/-! # Look-ups of the search

The search with plain numbers for nodes, in which every look-up may fail: colours and arcs by node,
an arc by its place, the position of a node on the path, an id by its place, and the path when a
node is taken off it. It goes through the states of the search and never fails, so all its look-ups
are in range.
-/

namespace Wiring.Graph

/-- A state of the search by numbers. A frame is a node and the number of its arcs that were
examined; `positions` tells where on the path a node is. -/
structure Machine where
  colours : Array Colour
  stack : List (Nat × Nat)
  path : Array Nat
  positions : Nat → Option Nat
  cycles : Array (List String)
  circular : Array Nat

namespace Machine

def start (count : Nat) : Machine where
  colours := Array.replicate count .unvisited
  stack := []
  path := #[]
  positions := fun _ => none
  cycles := #[]
  circular := #[]

/-- Give a node a colour; fails for a number that no node has. -/
def paint? (machine : Machine) (node : Nat) (colour : Colour) : Option Machine :=
  if node < machine.colours.size then
    some { machine with colours := machine.colours.setIfInBounds node colour }
  else none

def enter? (machine : Machine) (node : Nat) : Option Machine := do
  let painted ← machine.paint? node .inProgress
  return { painted with
    stack := (node, 0) :: machine.stack
    path := machine.path.push node
    positions := Function.update machine.positions node (some machine.path.size) }

/-- Take a node off the path; fails if nothing is on the path, or the node has no position. -/
def leave? (machine : Machine) (node : Nat) (below : List (Nat × Nat)) : Option Machine := do
  let painted ← machine.paint? node .done
  let _ ← machine.path.back?
  let _ ← machine.positions node
  return { painted with
    stack := below
    path := machine.path.pop
    positions := Function.update machine.positions node none }

/-- Record an edge that leads back onto the path; fails if its target has no position, or a number
on the path is that of no id. -/
def close? (ids : List String) (machine : Machine) (node edge target : Nat) : Option Machine :=
  if target = node then some { machine with circular := machine.circular.push edge }
  else do
    let first ← machine.positions target
    let cycle ← (machine.path.toList.drop first).mapM fun place => ids[place]?
    return { machine with
      circular := machine.circular.push edge
      cycles := machine.cycles.push cycle }

section Steps

variable (ids : List String) (outgoing : Array (List (Nat × Nat)))

/-- One step, for a frame on top of the stack. -/
def step? (machine : Machine) (node position : Nat) (below : List (Nat × Nat)) :
    Option Machine := do
  let arcs ← outgoing[node]?
  if position = arcs.length then machine.leave? node below
  else
    let (edge, target) ← arcs[position]?
    let advanced := { machine with stack := (node, position + 1) :: below }
    match ← machine.colours[target]? with
    | .unvisited => advanced.enter? target
    | .inProgress => advanced.close? ids node edge target
    | .done => return advanced

/-- Step until the stack is empty; fails if that takes more than the given number of steps. -/
def run? (steps : Nat) (machine : Machine) : Option Machine :=
  match machine.stack, steps with
  | [], _ => some machine
  | _ :: _, 0 => none
  | (node, position) :: below, steps + 1 => do
    let next ← machine.step? ids outgoing node position below
    next.run? steps

/-- Search from a root, unless it was visited before. -/
def visit? (steps : Nat) (machine : Machine) (root : Nat) : Option Machine := do
  match ← machine.colours[root]? with
  | .unvisited => (← machine.enter? root).run? ids outgoing steps
  | _ => return machine

/-- Search from every node in order, with a bound on the steps from each root. -/
def all? (steps : Nat) : Option Machine :=
  (List.range ids.length).foldlM (visit? ids outgoing steps) (start ids.length)

variable {ids outgoing} {steps : Nat} {machine : Machine}

private theorem run?_idle (idle : machine.stack = []) :
    machine.run? ids outgoing steps = some machine := by
  rw [run?.eq_def, idle]

private theorem run?_succ {node position : Nat} {below : List (Nat × Nat)}
    (stack : machine.stack = (node, position) :: below) :
    machine.run? ids outgoing (steps + 1) =
      (machine.step? ids outgoing node position below).bind (run? ids outgoing steps) := by
  rw [run?.eq_def, stack]
  rfl

end Steps

end Machine

/-- Add an arc to those of its source; fails for a number that no node has. -/
def attach? (outgoing : Array (List (Nat × Nat))) (source edge target : Nat) :
    Option (Array (List (Nat × Nat))) :=
  if source < outgoing.size then some (outgoing.modify source (· ++ [(edge, target)])) else none

/-- The arcs that leave each node, by numbers. -/
def outgoing? (ids : List String) (edges : List Edge) : Option (Array (List (Nat × Nat))) :=
  edges.zipIdx.foldlM
    (fun outgoing item =>
      match lastIndex? item.1.source ids, lastIndex? item.1.target ids with
      | some source, some target => attach? outgoing source item.2 target
      | _, _ => some outgoing)
    (Array.replicate ids.length [])

/-- Search a graph for cycles by numbers. -/
def circularity? (graph : Graph) (steps : Nat) : Option Circularity := do
  let outgoing ← outgoing? graph.ids graph.edges
  let machine ← Machine.all? graph.ids outgoing steps
  return ⟨machine.cycles.toList, machine.circular.toList⟩

def Mark.position? : Mark → Option Nat
  | .onPath position => some position
  | _ => none

variable {ids : List String} {arcs : Arcs ids.length} {search : Search ids.length}

def plainArcs {n : Nat} (arcs : Arcs n) : Array (List (Nat × Nat)) :=
  arcs.toArray.map fun out => out.map fun arc => (arc.edge, arc.target.val)

/-- Frames by numbers: the arcs that are not pending were examined. -/
def plainStack {n : Nat} (arcs : Arcs n) (stack : List (Frame n)) : List (Nat × Nat) :=
  stack.map fun frame => (frame.node.val, (arcs.get frame.node).length - frame.pending.length)

/-- Where each node is on the path. -/
def plainPositions {n : Nat} (marks : Vector Mark n) (node : Nat) : Option Nat :=
  if known : node < n then (marks.get ⟨node, known⟩).position? else none

/-- A state of the search by numbers. -/
def Search.plain (ids : List String) (arcs : Arcs ids.length) (search : Search ids.length) :
    Machine where
  colours := search.marks.toArray.map Mark.colour
  stack := plainStack arcs search.stack
  path := search.path.map Fin.val
  positions := plainPositions search.marks
  cycles := search.cycles.map fun cycle => cycle.map ids.get
  circular := search.circular

theorem getElem?_plainArcs {n : Nat} (arcs : Arcs n) (node : Fin n) :
    (plainArcs arcs)[node.val]? =
      some ((arcs.get node).map fun arc => (arc.edge, arc.target.val)) := by
  simp [plainArcs, Vector.get]

theorem getElem?_colours (search : Search ids.length) (node : Fin ids.length) :
    (search.plain ids arcs).colours[node.val]? = some (search.marks.get node).colour := by
  simp [Search.plain, Vector.get]

theorem plainPositions_apply {n : Nat} (marks : Vector Mark n) (node : Fin n) :
    plainPositions marks node = (marks.get node).position? :=
  dif_pos node.isLt

private theorem plainPositions_set {n : Nat} (marks : Vector Mark n) (node : Fin n) (mark : Mark) :
    plainPositions (marks.set node mark node.isLt) =
      Function.update (plainPositions marks) node mark.position? := by
  funext place
  by_cases known : place < n
  · have here := plainPositions_apply (marks.set node mark node.isLt) ⟨place, known⟩
    have before := plainPositions_apply marks ⟨place, known⟩
    rw [here, Function.update_apply, before, Search.get_set_mark]
    by_cases same : place = node.val
    · rw [if_pos same, if_pos (Fin.ext same.symm)]
    · rw [if_neg same, if_neg fun equal => same (congrArg Fin.val equal).symm]
  · have other : place ≠ node.val := fun same => known (same ▸ node.isLt)
    rw [Function.update_of_ne other, plainPositions, plainPositions, dif_neg known, dif_neg known]

private theorem paint?_plain (search : Search ids.length) (node : Fin ids.length) (mark : Mark) :
    (search.plain ids arcs).paint? node mark.colour =
      some { search.plain ids arcs with
        colours := (search.marks.set node mark node.isLt).toArray.map Mark.colour } := by
  have known : node.val < (search.marks.toArray.map Mark.colour).size := by simp
  have painted : (search.marks.set node mark node.isLt).toArray.map Mark.colour =
      (search.marks.toArray.map Mark.colour).setIfInBounds node mark.colour := by
    rw [Array.setIfInBounds, dif_pos known, Vector.toArray_set, Array.map_set]
  rw [Machine.paint?, painted]
  exact if_pos known

theorem enter?_plain (search : Search ids.length) (node : Fin ids.length) :
    (search.plain ids arcs).enter? node = some ((search.enter arcs node).plain ids arcs) := by
  have painted : (search.plain ids arcs).paint? node .inProgress = _ :=
    paint?_plain search node (.onPath search.path.size)
  rw [Machine.enter?, painted]
  simp [Search.plain, Search.enter, plainPositions_set, plainStack, Mark.position?]

private theorem leave?_plain (traced : search.Traced) {node : Fin ids.length}
    {below : List (Frame ids.length)} (stack : search.stack = ⟨node, []⟩ :: below) :
    (search.plain ids arcs).leave? node (plainStack arcs below) =
      some ((search.leave node below).plain ids arcs) := by
  have painted : (search.plain ids arcs).paint? node .done = _ :=
    paint?_plain search node .finished
  have last : (search.plain ids arcs).path.back? = some node.val := by
    have ends : search.path.toList.getLast? = some node := by
      rw [traced.path_eq stack, List.getLast?_concat]
    simp [Search.plain, ← Array.getLast?_toList, ends]
  obtain ⟨position, marked⟩ := traced.on_path (stack ▸ List.mem_cons_self ..)
  have found : (search.plain ids arcs).positions node = some position := by
    change plainPositions search.marks node = _
    rw [plainPositions_apply, marked]
    rfl
  rw [Machine.leave?, painted, last, found]
  simp [Search.plain, Search.leave, plainPositions_set, plainStack, Mark.position?]

private theorem mapM_getElem? (path : List (Fin ids.length)) :
    (path.map Fin.val).mapM (fun place => ids[place]?) = some (path.map ids.get) := by
  induction path with
  | nil => rfl
  | cons node path ih => simp [ih]

private theorem close?_plain {node : Fin ids.length} {arc : Arc ids.length} {position : Nat}
    (back : search.marks.get arc.target = .onPath position) :
    (search.plain ids arcs).close? ids node arc.edge arc.target =
      some ((search.close node arc position).plain ids arcs) := by
  by_cases loop : arc.target = node
  · rw [Machine.close?, if_pos (congrArg Fin.val loop)]
    simp [Search.plain, Search.close, loop]
  · have found : (search.plain ids arcs).positions arc.target = some position := by
      change plainPositions search.marks arc.target = _
      rw [plainPositions_apply, back]
      rfl
    have named : ((search.plain ids arcs).path.toList.drop position).mapM
        (fun place => ids[place]?) = some ((search.path.toList.drop position).map ids.get) := by
      rw [← mapM_getElem?, List.map_drop]
      simp [Search.plain]
    rw [Machine.close?, if_neg (fun same => loop (Fin.ext same)), found]
    simp only [Option.bind_eq_bind, Option.bind_some, named]
    simp [Search.plain, Search.close, loop]

/-- The frame on top by numbers: its next arc is the one at its position. -/
theorem getElem?_examined {node : Fin ids.length} {arc : Arc ids.length}
    {pending : List (Arc ids.length)} (suffix : arc :: pending <:+ arcs.get node) :
    (arcs.get node).length - pending.length =
      (arcs.get node).length - (arc :: pending).length + 1 ∧
    ((arcs.get node).map fun arc => (arc.edge, arc.target.val))[
      (arcs.get node).length - (arc :: pending).length]? = some (arc.edge, arc.target.val) := by
  obtain ⟨examined, divides⟩ := suffix
  have place : (arcs.get node).length - (arc :: pending).length = examined.length := by
    rw [← divides, List.length_append, Nat.add_sub_cancel]
  rw [place, ← divides]
  constructor
  · simp only [List.length_append, List.length_cons]
    omega
  · simp

theorem step?_plain (reachable : search.Reachable arcs) {top : Frame ids.length}
    {below : List (Frame ids.length)} (stack : search.stack = top :: below) :
    (search.plain ids arcs).step? ids (plainArcs arcs) top.node
        ((arcs.get top.node).length - top.pending.length) (plainStack arcs below) =
      some ((search.step arcs top below).plain ids arcs) := by
  rcases top with ⟨node, pending⟩
  rw [Machine.step?, getElem?_plainArcs]
  cases pending with
  | nil =>
    simp only [List.length_nil, Nat.sub_zero, Option.bind_eq_bind, Option.bind_some,
      List.length_map, if_true]
    exact leave?_plain reachable.traced stack
  | cons arc pending =>
    have suffix : arc :: pending <:+ arcs.get node :=
      reachable.ordered.nested.pending_suffix (stack ▸ List.mem_cons_self ..)
    obtain ⟨next, found⟩ := getElem?_examined suffix
    have unfinished : (arcs.get node).length - (arc :: pending).length ≠
        ((arcs.get node).map fun arc => (arc.edge, arc.target.val)).length := by
      have := suffix.length_le
      simp only [List.length_cons, List.length_map] at this ⊢
      omega
    -- the frame on top has one arc fewer pending, so one more was examined
    let advanced : Search ids.length := { search with stack := ⟨node, pending⟩ :: below }
    have moved : { search.plain ids arcs with
        stack := (node.val, (arcs.get node).length - (arc :: pending).length + 1) ::
          plainStack arcs below } = advanced.plain ids arcs := by
      rw [← next]
      rfl
    simp only [Option.bind_eq_bind, Option.bind_some, if_neg unfinished, found, getElem?_colours,
      moved, Search.step, Search.examine]
    cases mark : search.marks.get arc.target with
    | unvisited => exact enter?_plain advanced arc.target
    | onPath position =>
      have back : advanced.marks.get arc.target = .onPath position := mark
      exact close?_plain back
    | finished => rfl

/-- With enough steps the loop over the stack by numbers ends, and ends as the search does. -/
theorem run?_plain (reachable : search.Reachable arcs) :
    ∃ bound, ∀ steps ≥ bound, (search.plain ids arcs).run? ids (plainArcs arcs) steps =
      some ((search.run arcs).plain ids arcs) := by
  -- along the recursion of the search, which ends: each of its steps is one step by numbers
  fun_induction Search.run arcs search with
  | case1 search empty =>
    have idle : (search.plain ids arcs).stack = [] := congrArg (plainStack arcs) empty
    exact ⟨0, fun steps _ => Machine.run?_idle idle⟩
  | case2 search top below stack ih =>
    obtain ⟨bound, ends⟩ := ih (reachable.move (Search.step_move stack))
    refine ⟨bound + 1, fun steps enough => ?_⟩
    obtain ⟨fewer, rfl⟩ : ∃ fewer, steps = fewer + 1 := ⟨steps - 1, by omega⟩
    have framed : (search.plain ids arcs).stack =
        (top.node.val, (arcs.get top.node).length - top.pending.length) :: plainStack arcs below :=
      congrArg (plainStack arcs) stack
    rw [Machine.run?_succ framed, step?_plain reachable stack, Option.bind_some]
    exact ends fewer (by omega)

private theorem visit?_plain (reachable : search.Reachable arcs) (idle : search.stack = [])
    (root : Fin ids.length) :
    ∃ bound, ∀ steps ≥ bound, (search.plain ids arcs).visit? ids (plainArcs arcs) steps root =
      some ((search.visit arcs root).plain ids arcs) := by
  simp only [Machine.visit?, getElem?_colours, Option.bind_eq_bind, Option.bind_some, Search.visit]
  cases mark : search.marks.get root with
  | unvisited =>
    obtain ⟨bound, ends⟩ := run?_plain (reachable.move (.root idle mark))
    refine ⟨bound, fun steps enough => ?_⟩
    simp only [Mark.colour, enter?_plain, Option.bind_some, if_true]
    exact ends steps enough
  | onPath position => exact ⟨0, fun _ _ => rfl⟩
  | finished => exact ⟨0, fun _ _ => rfl⟩

private theorem visits?_plain (roots : List (Fin ids.length)) (reachable : search.Reachable arcs)
    (idle : search.stack = []) :
    ∃ bound, ∀ steps ≥ bound,
      (roots.map Fin.val).foldlM (Machine.visit? ids (plainArcs arcs) steps)
        (search.plain ids arcs) =
          some ((roots.foldl (Search.visit arcs) search).plain ids arcs) := by
  induction roots generalizing search with
  | nil => exact ⟨0, fun _ _ => rfl⟩
  | cons root roots ih =>
    have next : (search.visit arcs root).Reachable arcs :=
      Search.visit_preserves (fun move sofar => .move sofar move) idle reachable root
    obtain ⟨first, visited⟩ := visit?_plain reachable idle root
    obtain ⟨rest, ends⟩ := ih next (Search.visit_idle idle root)
    -- one bound for all roots, as the search by numbers has
    refine ⟨max first rest, fun steps enough => ?_⟩
    rw [List.map_cons, List.foldlM_cons, visited steps (by omega)]
    exact ends steps (by omega)

theorem plain_start : (Search.start ids.length).plain ids arcs = Machine.start ids.length := by
  have positions : plainPositions (Search.start ids.length).marks = fun _ => none := by
    funext place
    unfold plainPositions
    split
    · rw [Search.start_mark]
      rfl
    · rfl
  simp only [Search.plain, positions]
  simp [Search.start, Machine.start, plainStack, Mark.colour]

/-- With enough steps from each root the search by numbers goes through, and finds what the search
finds. -/
theorem all?_plain (arcs : Arcs ids.length) :
    ∃ steps, Machine.all? ids (plainArcs arcs) steps =
      some ((Search.all arcs).plain ids arcs) := by
  have reachable : (Search.start ids.length).Reachable arcs := .start
  obtain ⟨bound, ends⟩ := visits?_plain (List.finRange ids.length) reachable rfl
  refine ⟨bound, ?_⟩
  rw [Machine.all?, ← plain_start, ← List.map_coe_finRange_eq_range]
  exact ends bound le_rfl

private theorem attach?_plain {n : Nat} (links : List (Fin n × Arc n)) (source : Fin n)
    (arc : Arc n) :
    attach? (plainArcs (arcsOf links)) source arc.edge arc.target =
      some (plainArcs (arcsOf (links ++ [(source, arc)]))) := by
  have known : source.val < (plainArcs (arcsOf links)).size := by simp [plainArcs]
  rw [attach?, if_pos known]
  refine congrArg some (Array.ext (by simp [plainArcs]) fun place inOld inNew => ?_)
  rw [Array.getElem_modify]
  by_cases same : source.val = place
  · subst same
    simp [plainArcs, arcsOf]
  · have other : source ≠ ⟨place, by simpa [plainArcs] using inNew⟩ := fun equal =>
      same (congrArg Fin.val equal)
    simp [plainArcs, arcsOf, same, other]

/-- The edges are attached one by one to the arcs so far. -/
theorem foldlM_attach? (items : List (Edge × Nat))
    (sofar : List (Fin ids.length × Arc ids.length)) :
    items.foldlM
        (fun outgoing item =>
          match lastIndex? item.1.source ids, lastIndex? item.1.target ids with
          | some source, some target => attach? outgoing source item.2 target
          | _, _ => some outgoing)
        (plainArcs (arcsOf sofar)) =
      some (plainArcs (arcsOf (sofar ++ items.filterMap fun item => do
        let source ← lastIndex? item.1.source ids
        let target ← lastIndex? item.1.target ids
        return (source, ⟨item.2, target⟩)))) := by
  induction items generalizing sofar with
  | nil => simp
  | cons item items ih =>
    rw [List.foldlM_cons, List.filterMap_cons]
    cases known : lastIndex? item.1.source ids with
    | none => simpa using ih sofar
    | some source =>
      cases reached : lastIndex? item.1.target ids with
      | none => simpa using ih sofar
      | some target =>
        have attached := attach?_plain sofar source ⟨item.2, target⟩
        have rest := ih (sofar ++ [(source, ⟨item.2, target⟩)])
        rw [List.append_assoc, List.singleton_append] at rest
        simpa only [attached, Option.bind_eq_bind, Option.bind_some, Option.pure_def] using rest

theorem outgoing?_eq (edges : List Edge) :
    outgoing? ids edges = some (plainArcs (arcsOf (links ids edges))) := by
  have none : Array.replicate ids.length [] =
      plainArcs (arcsOf ([] : List (Fin ids.length × Arc ids.length))) := by
    apply Array.ext <;> simp [plainArcs, arcsOf]
  rw [outgoing?, none]
  exact foldlM_attach? edges.zipIdx []

/-- The search of a graph by numbers never fails, and comes to the same. -/
theorem circularity?_eq (graph : Graph) :
    ∃ steps, graph.circularity? steps = some graph.circularity := by
  obtain ⟨steps, ends⟩ := all?_plain (arcsOf (links graph.ids graph.edges))
  refine ⟨steps, ?_⟩
  simp only [circularity?, outgoing?_eq, Option.bind_eq_bind, Option.bind_some, ends]
  simp [circularity, Search.plain]

end Wiring.Graph
