import Mathlib.Data.Nat.Find
import Wiring.Proofs.Search.Path

/-! # The course of the search

The search as a sequence of moments, one for each step of its loops. Every moment is a state that
the search goes through, and one of them is its end. Later moments know more: a visited node stays
visited and a finished one finished. So of any two moments the later one decides, and a node is
entered at one moment only.
-/

namespace Wiring.Graph.Search

variable {n : Nat} {arcs : Arcs n} {search next : Search n}

/-- The state after a step, with the roots still to come. A root that was visited is passed over,
and without roots nothing happens any more. -/
def advance (arcs : Arcs n) (roots : List (Fin n)) (search : Search n) : List (Fin n) × Search n :=
  match search.stack, roots with
  | top :: below, _ => (roots, search.step arcs top below)
  | [], root :: later =>
    (later, if search.marks.get root = .unvisited then search.enter arcs root else search)
  | [], [] => ([], search)

/-- The state after a number of steps, with the roots still to come. -/
def course (arcs : Arcs n) : Nat → List (Fin n) × Search n
  | 0 => (List.finRange n, start n)
  | step + 1 => advance arcs (course arcs step).1 (course arcs step).2

/-- The state after a number of steps. -/
def moment (arcs : Arcs n) (step : Nat) : Search n := (course arcs step).2

section Advance

variable {roots : List (Fin n)}

theorem advance_step {top : Frame n} {below : List (Frame n)} (stack : search.stack = top :: below) :
    advance arcs roots search = (roots, search.step arcs top below) := by
  simp only [advance, stack]

theorem advance_root (idle : search.stack = []) (root : Fin n) :
    advance arcs (root :: roots) search =
      (roots, if search.marks.get root = .unvisited then search.enter arcs root else search) := by
  simp only [advance, idle]

/-- A step is a move, or leaves the search as it was. -/
theorem advance_move (arcs : Arcs n) (roots : List (Fin n)) (search : Search n) :
    (advance arcs roots search).2 = search ∨ Move arcs search (advance arcs roots search).2 := by
  cases stack : search.stack with
  | cons top below =>
    rw [advance_step stack]
    exact .inr (step_move stack)
  | nil =>
    cases roots with
    | nil => simp [advance, stack]
    | cons root later =>
      rw [advance_root stack]
      split
      · rename_i fresh
        exact .inr (.root stack fresh)
      · exact .inl rfl

end Advance

theorem moment_succ (arcs : Arcs n) (step : Nat) :
    moment arcs (step + 1) = moment arcs step ∨
      Move arcs (moment arcs step) (moment arcs (step + 1)) :=
  advance_move arcs (course arcs step).1 (course arcs step).2

/-- Every moment is a state that the search goes through. -/
theorem moment_reachable (arcs : Arcs n) (step : Nat) : Reachable arcs (moment arcs step) := by
  induction step with
  | zero => exact .start
  | succ step ih =>
    rcases moment_succ arcs step with same | move
    · rwa [same]
    · exact .move ih move

section Ending

variable {roots : List (Fin n)} {step : Nat}

/-- From every moment the loop over the stack comes to its end. -/
theorem exists_course_run (here : course arcs step = (roots, search)) :
    ∃ later, course arcs later = (roots, search.run arcs) := by
  fun_induction run arcs search generalizing step with
  | case1 search empty => exact ⟨step, here⟩
  | case2 search top below stack ih =>
    have next : course arcs (step + 1) = (roots, search.step arcs top below) := by
      rw [course, here, advance_step stack]
    exact ih next

theorem exists_course_visits (here : course arcs step = (roots, search)) (idle : search.stack = []) :
    ∃ later, course arcs later = ([], roots.foldl (visit arcs) search) := by
  induction roots generalizing step search with
  | nil => exact ⟨step, here⟩
  | cons root roots ih =>
    have next : course arcs (step + 1) =
        (roots, if search.marks.get root = .unvisited then search.enter arcs root else search) := by
      rw [course, here, advance_root idle]
    have visited : ∃ later, course arcs later = (roots, search.visit arcs root) := by
      unfold visit
      by_cases fresh : search.marks.get root = .unvisited
      · rw [if_pos fresh] at next ⊢
        exact exists_course_run next
      · rw [if_neg fresh] at next ⊢
        exact ⟨step + 1, next⟩
    obtain ⟨later, there⟩ := visited
    exact ih there (visit_idle idle root)

/-- The search comes to its end at some moment. -/
theorem exists_moment_eq_all (arcs : Arcs n) : ∃ step, moment arcs step = all arcs := by
  have here : course arcs 0 = (List.finRange n, start n) := rfl
  obtain ⟨step, there⟩ := exists_course_visits here rfl
  exact ⟨step, congrArg Prod.snd there⟩

/-- What is left to do at a moment ends as the search does. -/
theorem foldl_visit_course (arcs : Arcs n) (step : Nat) :
    (course arcs step).1.foldl (visit arcs) ((moment arcs step).run arcs) = all arcs := by
  induction step with
  | zero => rw [moment, course, run_eq_self rfl, all]
  | succ step ih =>
    rw [← ih, moment, course, moment]
    generalize (course arcs step).2 = search
    cases stack : search.stack with
    | cons top below => rw [advance_step stack, run_eq_step stack]
    | nil =>
      rw [run_eq_self stack]
      cases (course arcs step).1 with
      | nil =>
        simp only [advance, stack]
        rw [run_eq_self stack]
      | cons root later =>
        rw [advance_root stack, List.foldl_cons, visit]
        by_cases fresh : search.marks.get root = .unvisited
        · rw [if_pos fresh, if_pos fresh]
        · rw [if_neg fresh, if_neg fresh, run_eq_self stack]

/-- A moment with nothing left to do is the end of the search. -/
theorem all_eq_moment (arcs : Arcs n) (step : Nat)
    (ended : (course arcs step).1 = [] ∧ (moment arcs step).stack = []) :
    all arcs = moment arcs step := by
  have left := foldl_visit_course arcs step
  rw [ended.1, run_eq_self ended.2] at left
  exact left.symm

end Ending

/-- A finished node stays finished. -/
theorem Move.finished (move : Move arcs search next) {node : Fin n}
    (finished : search.marks.get node = .finished) : next.marks.get node = .finished := by
  cases move with
  | root idle fresh =>
    rw [enter_mark, if_neg, finished]
    rintro rfl
    nomatch fresh.symm.trans finished
  | leave stack =>
    rw [leave_mark, finished, ite_self]
  | descend stack fresh =>
    rw [enter_mark, if_neg]
    · exact finished
    · rintro rfl
      nomatch fresh.symm.trans finished
  | close stack back => exact finished
  | skip stack done => exact finished

section Order

variable {node : Fin n} {step later : Nat}

/-- What no move undoes is there at every later moment. -/
theorem moment_mono {Kept : Search n → Prop}
    (kept : ∀ {search next : Search n}, Move arcs search next → Kept search → Kept next)
    (order : step ≤ later) (holds : Kept (moment arcs step)) : Kept (moment arcs later) := by
  induction order with
  | refl => exact holds
  | step _ ih =>
    rcases moment_succ arcs _ with same | move
    · rwa [same]
    · exact kept move ih

theorem visited_mono (order : step ≤ later)
    (visited : (moment arcs step).marks.get node ≠ .unvisited) :
    (moment arcs later).marks.get node ≠ .unvisited :=
  moment_mono (fun move => move.visited) order visited

theorem finished_mono (order : step ≤ later)
    (finished : (moment arcs step).marks.get node = .finished) :
    (moment arcs later).marks.get node = .finished :=
  moment_mono (fun move => move.finished) order finished

end Order

/-- The search finishes one node before it comes to another: at some moment the one is finished
and the other not visited yet. -/
def Precedes (arcs : Arcs n) (earlier later : Fin n) : Prop :=
  ∃ step, (moment arcs step).marks.get earlier = .finished ∧
    (moment arcs step).marks.get later = .unvisited

/-- No node precedes another if at some moment the one is not finished and the other visited. -/
theorem not_precedes_of_moment {earlier later : Fin n} {step : Nat}
    (unfinished : (moment arcs step).marks.get earlier ≠ .finished)
    (visited : (moment arcs step).marks.get later ≠ .unvisited) : ¬ Precedes arcs earlier later := by
  rintro ⟨other, finished, unvisited⟩
  rcases Nat.le_total other step with before | after
  · exact unfinished (finished_mono before finished)
  · exact visited_mono after visited unvisited

private theorem exists_visited (arcs : Arcs n) (node : Fin n) :
    ∃ step, (moment arcs step).marks.get node ≠ .unvisited := by
  obtain ⟨step, same⟩ := exists_moment_eq_all arcs
  exact ⟨step, same ▸ all_visited arcs node⟩

/-- The moment at which a node is entered. -/
def entry (arcs : Arcs n) (node : Fin n) : Nat := Nat.find (exists_visited arcs node)

theorem entry_le_iff {node : Fin n} {step : Nat} :
    entry arcs node ≤ step ↔ (moment arcs step).marks.get node ≠ .unvisited := by
  constructor
  · exact fun order => visited_mono order (Nat.find_spec (exists_visited arcs node))
  · exact fun visited => Nat.find_min' _ visited

/-- A node that precedes another is entered before it. -/
theorem Precedes.entry_lt {earlier later : Fin n} (precedes : Precedes arcs earlier later) :
    entry arcs earlier < entry arcs later := by
  obtain ⟨step, finished, unvisited⟩ := precedes
  have reached : entry arcs earlier ≤ step := entry_le_iff.mpr (by simp [finished])
  have unreached : ¬ entry arcs later ≤ step := mt entry_le_iff.mp (not_not.mpr unvisited)
  omega

/-- A move cuts the path or leaves it as it was, and then visits no node, or it puts one new node at
the end of the path. -/
theorem Move.path (move : Move arcs search next) (traced : Traced search) :
    (next.path.toList <+: search.path.toList ∧
      ∀ node, search.marks.get node = .unvisited → next.marks.get node = .unvisited) ∨
    ∃ node, search.marks.get node = .unvisited ∧ next.path.toList = search.path.toList ++ [node] ∧
      ∀ other, other ≠ node → next.marks.get other = search.marks.get other := by
  have entered (search : Search n) (node other : Fin n) (apart : other ≠ node) :
      (search.enter arcs node).marks.get other = search.marks.get other := by
    rw [enter_mark, if_neg apart.symm]
  cases move with
  | root idle fresh => exact .inr ⟨_, fresh, by simp [Search.enter], entered search _⟩
  | @leave node below stack =>
    refine .inl ⟨?_, fun other unvisited => ?_⟩
    · rw [Search.leave, Array.toList_pop]
      exact List.dropLast_prefix _
    · obtain ⟨position, onPath⟩ := traced.on_path (stack ▸ List.mem_cons_self ..)
      rw [leave_mark, if_neg, unvisited]
      rintro rfl
      simp [unvisited] at onPath
  | descend stack fresh => exact .inr ⟨_, fresh, by simp [Search.enter], entered _ _⟩
  | close stack back => exact .inl ⟨List.prefix_rfl, fun _ unvisited => unvisited⟩
  | skip stack done => exact .inl ⟨List.prefix_rfl, fun _ unvisited => unvisited⟩

/-- What is so just before a node is entered: it is not visited yet, and comes to stand at the end
of the path. -/
theorem exists_entry (arcs : Arcs n) (node : Fin n) :
    ∃ step, entry arcs node = step + 1 ∧ (moment arcs step).marks.get node = .unvisited ∧
      (moment arcs (step + 1)).path.toList = (moment arcs step).path.toList ++ [node] ∧
      ∀ other, other ≠ node →
        (moment arcs (step + 1)).marks.get other = (moment arcs step).marks.get other := by
  have visited := entry_le_iff.mp (Nat.le_refl (entry arcs node))
  cases first : entry arcs node with
  | zero =>
    rw [first] at visited
    exact absurd (start_mark node) visited
  | succ step =>
    rw [first] at visited
    have unvisited : (moment arcs step).marks.get node = .unvisited := by
      by_contra before
      have := entry_le_iff.mpr before
      omega
    refine ⟨step, rfl, unvisited, ?_⟩
    rcases moment_succ arcs step with same | move
    · exact absurd unvisited (same ▸ visited)
    rcases move.path (moment_reachable arcs step).traced with ⟨_, still⟩ | ⟨new, _, longer, others⟩
    · exact absurd (still node unvisited) visited
    · have same : node = new := by
        by_contra apart
        exact visited ((others node apart).trans unvisited)
      rw [same]
      exact ⟨longer, others⟩

end Wiring.Graph.Search
