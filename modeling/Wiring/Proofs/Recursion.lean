import Wiring.Proofs.Circularity
import Wiring.Proofs.Search.Survey

/-! # The stack against recursion

The loop over the stack does what the recursive search does. A frame on the stack is a call that
waits, and the arcs pending in it are those that the call has yet to follow. Each call of the
recursion is therefore one stretch of the loop, from the state in which the call begins to a state
with the same frames below, and both have found the same.
-/

namespace Wiring.Graph

theorem arcs_eq_outgoing (graph : Graph) (node : Fin graph.ids.length) :
    graph.arcs.get node = graph.outgoing node := by
  rw [arcsOf_get, links, List.filterMap_filterMap]
  refine List.filterMap_congr ?_
  rintro ⟨edge, place⟩ _
  cases atSource : lastIndex? edge.source graph.ids <;>
    cases atTarget : lastIndex? edge.target graph.ids <;> simp [atSource, atTarget]

namespace Search

variable {n : Nat} {arcs : Arcs n} {search : Search n} {survey : Survey n} {path : List (Fin n)}
  {node : Fin n} {arc : Arc n} {pending : List (Arc n)} {below stack : List (Frame n)}

theorem step_descend (fresh : search.marks.get arc.target = .unvisited) :
    search.step arcs ⟨node, arc :: pending⟩ below =
      { search with stack := ⟨node, pending⟩ :: below }.enter arcs arc.target := by
  simp only [step, examine, fresh]

theorem step_close {position : Nat} (back : search.marks.get arc.target = .onPath position) :
    search.step arcs ⟨node, arc :: pending⟩ below =
      { search with stack := ⟨node, pending⟩ :: below }.close node arc position := by
  simp only [step, examine, back]

theorem step_skip (done : search.marks.get arc.target = .finished) :
    search.step arcs ⟨node, arc :: pending⟩ below =
      { search with stack := ⟨node, pending⟩ :: below } := by
  simp only [step, examine, done]

/-- The loop stands where the recursion stands with a path and a survey. -/
structure Mirrors (search : Search n) (path : List (Fin n)) (survey : Survey n) : Prop where
  traced : Traced search
  path : search.path.toList = path
  colour : ∀ node, survey.colour node = (search.marks.get node).colour
  cycles : survey.cycles = search.cycles.toList
  circular : survey.circular = search.circular.toList

namespace Mirrors

theorem start : Mirrors (start n) [] (.start n) where
  traced := .start
  path := rfl
  colour node := by
    rw [start_mark]
    rfl
  cycles := rfl
  circular := rfl

theorem unvisited_iff (mirrors : Mirrors search path survey) (node : Fin n) :
    survey.colour node = .unvisited ↔ search.marks.get node = .unvisited := by
  rw [mirrors.colour]
  cases search.marks.get node <;> simp [Mark.colour]

private theorem inProgress_iff (mirrors : Mirrors search path survey) (node : Fin n) :
    survey.colour node = .inProgress ↔ ∃ position, search.marks.get node = .onPath position := by
  rw [mirrors.colour]
  cases search.marks.get node <;> simp [Mark.colour]

private theorem done_iff (mirrors : Mirrors search path survey) (node : Fin n) :
    survey.colour node = .done ↔ search.marks.get node = .finished := by
  rw [mirrors.colour]
  cases search.marks.get node <;> simp [Mark.colour]

theorem advance (mirrors : Mirrors search path survey)
    (stack : search.stack = ⟨node, arc :: pending⟩ :: below) :
    Mirrors { search with stack := ⟨node, pending⟩ :: below } path survey :=
  { mirrors with traced := mirrors.traced.advance stack }

/-- A new mark of a node stands for its new colour. -/
theorem colour_paint (mirrors : Mirrors search path survey) (node other : Fin n) (mark : Mark) :
    (survey.paint node mark.colour).colour other =
      (if node = other then mark else search.marks.get other).colour := by
  rw [Survey.paint_colour, mirrors.colour, apply_ite Mark.colour]
  simp only [eq_comm]

/-- Entering a node is the beginning of its visit. -/
theorem enter (mirrors : Mirrors search path survey) (fresh : survey.colour node = .unvisited) :
    Mirrors (search.enter arcs node) (path ++ [node]) (survey.paint node .inProgress) where
  traced := mirrors.traced.enter ((mirrors.unvisited_iff node).mp fresh)
  path := by rw [← mirrors.path, Search.enter, Array.toList_push]
  colour other := by
    rw [enter_mark]
    exact mirrors.colour_paint node other (.onPath search.path.size)
  cycles := mirrors.cycles
  circular := mirrors.circular

/-- Leaving a node is the end of its visit. -/
theorem leave (mirrors : Mirrors search (path ++ [node]) survey)
    (stack : search.stack = ⟨node, []⟩ :: below) :
    Mirrors (search.leave node below) path (survey.paint node .done) where
  traced := mirrors.traced.leave stack
  path := by rw [Search.leave, Array.toList_pop, mirrors.path, List.dropLast_concat]
  colour other := by
    rw [leave_mark]
    exact mirrors.colour_paint node other .finished
  cycles := mirrors.cycles
  circular := mirrors.circular

theorem close (mirrors : Mirrors search path survey) {position : Nat}
    (back : search.marks.get arc.target = .onPath position) :
    Mirrors (search.close node arc position) path (survey.report path node arc) where
  traced := ⟨mirrors.traced.path, mirrors.traced.position⟩
  path := mirrors.path
  colour := mirrors.colour
  cycles := by
    rw [Search.close, Survey.report, mirrors.traced.drop_position back, mirrors.path, mirrors.cycles]
    split
    · rfl
    · rw [Array.toList_push]
  circular := by rw [Search.close, Survey.report, mirrors.circular, Array.toList_push]

end Mirrors

/-- The loop comes to a state with this stack, where it stands like the recursion. -/
def Arrives (arcs : Arcs n) (search : Search n) (stack : List (Frame n)) (path : List (Fin n))
    (survey : Survey n) : Prop :=
  ∃ next, search.run arcs = next.run arcs ∧ next.stack = stack ∧ Mirrors next path survey

theorem Arrives.step {top : Frame n} (standing : search.stack = top :: below)
    (arrives : Arrives arcs (search.step arcs top below) stack path survey) :
    Arrives arcs search stack path survey := by
  obtain ⟨next, same, rest⟩ := arrives
  exact ⟨next, (run_eq_step standing).trans same, rest⟩

section Simulation

variable (arcs)

/-- From the entry of a new node the loop arrives where its visit ends. -/
def VisitArrives (path : List (Fin n)) (node : Fin n) (survey : Survey n)
    (fresh : survey.colour node = .unvisited) : Prop :=
  ∀ search : Search n, Mirrors search path survey →
    Arrives arcs (search.enter arcs node) search.stack path
      (Survey.visit arcs.get path node survey fresh).val

/-- With one arc examined the loop arrives where going along it ends. -/
def AlongArrives (path : List (Fin n)) (node : Fin n) (arc : Arc n) (survey : Survey n) : Prop :=
  ∀ (search : Search n) (pending : List (Arc n)) (below : List (Frame n)),
    Mirrors search path survey → search.stack = ⟨node, arc :: pending⟩ :: below →
    Arrives arcs search (⟨node, pending⟩ :: below) path
      (Survey.along arcs.get path node arc survey).val

/-- With all pending arcs examined the loop arrives where following them ends. -/
def FollowArrives (path : List (Fin n)) (node : Fin n) (pending : List (Arc n))
    (survey : Survey n) : Prop :=
  ∀ (search : Search n) (below : List (Frame n)),
    Mirrors search path survey → search.stack = ⟨node, pending⟩ :: below →
    Arrives arcs search (⟨node, []⟩ :: below) path
      (Survey.follow arcs.get path node pending survey).val

variable {arcs}

private theorem VisitArrives.of_follow (fresh : survey.colour node = .unvisited)
    (inside : FollowArrives arcs (path ++ [node]) node (arcs.get node)
      (survey.paint node .inProgress)) :
    VisitArrives arcs path node survey fresh := by
  intro search mirrors
  obtain ⟨next, same, stack, followed⟩ := inside _ search.stack (mirrors.enter fresh) rfl
  refine ⟨next.leave node search.stack, same.trans (run_eq_step stack), rfl, ?_⟩
  rw [Survey.visit]
  exact followed.leave stack

private theorem AlongArrives.of_visit (fresh : survey.colour arc.target = .unvisited)
    (deeper : VisitArrives arcs path arc.target survey fresh) :
    AlongArrives arcs path node arc survey := by
  intro search pending below mirrors stack
  have mark := (mirrors.unvisited_iff arc.target).mp fresh
  have advanced := mirrors.advance stack
  rw [Survey.along_unvisited fresh]
  refine .step stack ?_
  rw [step_descend mark]
  exact deeper _ advanced

private theorem AlongArrives.of_inProgress (back : survey.colour arc.target = .inProgress) :
    AlongArrives arcs path node arc survey := by
  intro search pending below mirrors stack
  obtain ⟨position, mark⟩ := (mirrors.inProgress_iff arc.target).mp back
  have advanced := mirrors.advance stack
  rw [Survey.along_inProgress back]
  refine .step stack ?_
  rw [step_close mark]
  exact ⟨_, rfl, rfl, advanced.close mark⟩

private theorem AlongArrives.of_done (done : survey.colour arc.target = .done) :
    AlongArrives arcs path node arc survey := by
  intro search pending below mirrors stack
  have mark := (mirrors.done_iff arc.target).mp done
  have advanced := mirrors.advance stack
  rw [Survey.along_done done]
  refine .step stack ?_
  rw [step_skip mark]
  exact ⟨_, rfl, rfl, advanced⟩

theorem FollowArrives.nil : FollowArrives arcs path node [] survey := by
  intro search below mirrors stack
  rw [Survey.follow]
  exact ⟨search, rfl, stack, mirrors⟩

theorem FollowArrives.cons (first : AlongArrives arcs path node arc survey)
    (rest : FollowArrives arcs path node pending
      (Survey.along arcs.get path node arc survey).val) :
    FollowArrives arcs path node (arc :: pending) survey := by
  intro search below mirrors stack
  obtain ⟨next, same, stack', mirrors'⟩ := first search pending below mirrors stack
  obtain ⟨last, same', stack'', mirrors''⟩ := rest next below mirrors' stack'
  refine ⟨last, same.trans same', stack'', ?_⟩
  rw [Survey.follow]
  exact mirrors''

end Simulation

/-- Every visit of the recursion is one stretch of the loop. -/
theorem visit_arrives (arcs : Arcs n) (path : List (Fin n)) (node : Fin n) (survey : Survey n)
    (fresh : survey.colour node = .unvisited) : VisitArrives arcs path node survey fresh := by
  refine Survey.visit.induct arcs.get (VisitArrives arcs) (FollowArrives arcs) (AlongArrives arcs)
    ?visit ?followNil ?followCons ?new ?back ?skip path node survey fresh
  case visit => exact fun _ _ _ fresh inside => VisitArrives.of_follow fresh inside
  case followNil => exact fun _ _ _ => FollowArrives.nil
  case followCons =>
    intro path node survey arc pending next first rest _
    exact FollowArrives.cons first rest
  case new => exact fun _ _ _ _ fresh deeper => AlongArrives.of_visit fresh deeper
  case back => exact fun _ _ _ _ back => AlongArrives.of_inProgress back
  case skip => exact fun _ _ _ _ done => AlongArrives.of_done done

theorem visit_mirrors (mirrors : Mirrors search [] survey) (idle : search.stack = []) (root : Fin n) :
    Mirrors (search.visit arcs root) [] (survey.root arcs.get root) := by
  unfold visit Survey.root
  by_cases fresh : survey.colour root = .unvisited
  · rw [dif_pos fresh, if_pos ((mirrors.unvisited_iff root).mp fresh)]
    obtain ⟨next, same, stack, arrived⟩ := visit_arrives arcs [] root survey fresh search mirrors
    rw [same, run_eq_self (stack.trans idle)]
    exact arrived
  · rw [dif_neg fresh, if_neg fun mark => fresh ((mirrors.unvisited_iff root).mpr mark)]
    exact mirrors

theorem visits_mirror (roots : List (Fin n)) (mirrors : Mirrors search [] survey)
    (idle : search.stack = []) :
    Mirrors (roots.foldl (visit arcs) search) [] (roots.foldl (Survey.root arcs.get) survey) := by
  induction roots generalizing search survey with
  | nil => exact mirrors
  | cons root roots ih => exact ih (visit_mirrors mirrors idle root) (visit_idle idle root)

theorem all_mirrors (arcs : Arcs n) : Mirrors (all arcs) [] (Survey.all arcs.get) :=
  visits_mirror _ .start rfl

end Search

/-- The search with an explicit stack finds the same cycles and the same circular edges as the
recursive search, in the same order. -/
theorem circularity_eq_recursive (graph : Graph) :
    graph.circularity = graph.recursiveCircularity := by
  have mirrors := Search.all_mirrors graph.arcs
  have same : graph.arcs.get = graph.outgoing := funext (arcs_eq_outgoing graph)
  rw [same] at mirrors
  simp only [circularity, recursiveCircularity, mirrors.cycles, mirrors.circular]

end Wiring.Graph
