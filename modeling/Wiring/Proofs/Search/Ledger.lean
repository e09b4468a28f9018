import Wiring.Proofs.Recursion

/-! # The ledger of the search

What the search does at each moment is written down: which nodes it enters and leaves, and which
arcs it examines. Together with what is still to be done the entries always make up the same whole,
all nodes and all arcs. A root is passed, a node is left or an arc is examined at every moment, and
never two of these at once; so it is known beforehand how many moments the search takes.
-/

namespace Wiring.Graph.Search

variable {n : Nat} {arcs : Arcs n} {search : Search n} {roots : List (Fin n)}

/-- Something that the search does. -/
inductive Deed (n : Nat) where
  | enter (node : Fin n)
  | leave (node : Fin n)
  | examine (arc : Arc n)
deriving DecidableEq, Repr

namespace Deed

def entered? : Deed n → Option (Fin n)
  | enter node => some node
  | _ => none

def left? : Deed n → Option (Fin n)
  | leave node => some node
  | _ => none

def examined? : Deed n → Option (Arc n)
  | examine arc => some arc
  | _ => none

end Deed

/-- Enter a node if it is new. -/
def deedsAt (search : Search n) (node : Fin n) : List (Deed n) :=
  if search.marks.get node = .unvisited then [.enter node] else []

/-- What the search does next, with some roots still to come. -/
def deeds (roots : List (Fin n)) (search : Search n) : List (Deed n) :=
  match search.stack, roots with
  | ⟨node, []⟩ :: _, _ => [.leave node]
  | ⟨_, arc :: _⟩ :: _, _ => .examine arc :: search.deedsAt arc.target
  | [], root :: _ => search.deedsAt root
  | [], [] => []

/-- What the search did in a number of steps. -/
def history (arcs : Arcs n) : Nat → List (Deed n)
  | 0 => []
  | step + 1 => history arcs step ++ deeds (course arcs step).1 (course arcs step).2

/-- The nodes that were entered, in order. -/
def entered (arcs : Arcs n) (step : Nat) : List (Fin n) :=
  (history arcs step).filterMap (·.entered?)

/-- The nodes that were left, in order. -/
def left (arcs : Arcs n) (step : Nat) : List (Fin n) := (history arcs step).filterMap (·.left?)

/-- The arcs that were examined, in order. -/
def examined (arcs : Arcs n) (step : Nat) : List (Arc n) :=
  (history arcs step).filterMap (·.examined?)

def fresh (search : Search n) : List (Fin n) :=
  (List.finRange n).filter fun node => search.marks.get node = .unvisited

/-- The arcs not examined yet: those pending on the stack, and all those of new nodes. -/
def waiting (arcs : Arcs n) (search : Search n) : List (Arc n) :=
  search.stack.flatMap (·.pending) ++ search.fresh.flatMap arcs.get

/-- The entries of the ledger and what is still to be done make up the whole. -/
structure Ledger (arcs : Arcs n) (search : Search n) (done : List (Deed n)) : Prop where
  entered : (done.filterMap (·.entered?) ++ search.fresh).Perm (List.finRange n)
  left : (done.filterMap (·.left?) ++ (search.stack.map (·.node) ++ search.fresh)).Perm
    (List.finRange n)
  examined : (done.filterMap (·.examined?) ++ search.waiting arcs).Perm
    ((List.finRange n).flatMap arcs.get)

/-- A node that is entered is new no longer. -/
theorem fresh_enter {node : Fin n} (isNew : search.marks.get node = .unvisited) :
    search.fresh.Perm (node :: (search.enter arcs node).fresh) := by
  have member : node ∈ search.fresh := by simp [fresh, isNew]
  have nodup : search.fresh.Nodup := (List.nodup_finRange n).filter _
  have rest : (search.enter arcs node).fresh = search.fresh.erase node := by
    rw [nodup.erase_eq_filter, fresh, fresh, List.filter_filter]
    refine List.filter_congr fun other _ => ?_
    rw [enter_mark]
    by_cases same : node = other
    · simp [same]
    · simp [same, Ne.symm same]
  rw [rest]
  exact List.perm_cons_erase member

/-- On entering a node its arcs wait on the stack, where they waited with the node before. -/
theorem waiting_enter {node : Fin n} (isNew : search.marks.get node = .unvisited) :
    ((search.enter arcs node).waiting arcs).Perm (search.waiting arcs) := by
  have moved : (search.fresh.flatMap arcs.get).Perm
      (arcs.get node ++ (search.enter arcs node).fresh.flatMap arcs.get) :=
    (fresh_enter isNew).flatMap_right arcs.get
  have stack : (search.enter arcs node).stack.flatMap (·.pending) =
      arcs.get node ++ search.stack.flatMap (·.pending) := List.flatMap_cons
  rw [waiting, waiting, stack, List.append_assoc]
  exact (List.perm_append_comm_assoc ..).trans (moved.symm.append_left _)

theorem fresh_leave {node : Fin n} {below : List (Frame n)}
    (visited : search.marks.get node ≠ .unvisited) :
    (search.leave node below).fresh = search.fresh := by
  refine List.filter_congr fun other _ => ?_
  rw [leave_mark]
  split
  · rename_i same
    simp [← same, visited]
  · rfl

namespace Ledger

variable {done : List (Deed n)}

theorem start : Ledger arcs (start n) [] := by
  have all : (Search.start n).fresh = List.finRange n := by
    rw [fresh, List.filter_eq_self]
    intro node _
    simp [start_mark]
  refine ⟨?_, ?_, ?_⟩
  · rw [all]
    exact .refl _
  · rw [all]
    exact .refl _
  · rw [waiting, all]
    exact .refl _

theorem enter (ledger : Ledger arcs search done) {node : Fin n}
    (isNew : search.marks.get node = .unvisited) :
    Ledger arcs (search.enter arcs node) (done ++ [.enter node]) := by
  have moved : search.fresh.Perm (node :: (search.enter arcs node).fresh) := fresh_enter isNew
  refine ⟨?_, ?_, ?_⟩
  · refine .trans ?_ ledger.entered
    rw [List.filterMap_append, List.append_assoc]
    exact moved.symm.append_left _
  · refine .trans ?_ ledger.left
    rw [List.filterMap_append, List.append_assoc]
    exact (List.perm_middle.symm.trans (moved.symm.append_left _)).append_left _
  · refine .trans ?_ ledger.examined
    rw [List.filterMap_append, List.append_assoc]
    exact (waiting_enter isNew).append_left _

theorem leave (ledger : Ledger arcs search done) {node : Fin n} {below : List (Frame n)}
    (visited : search.marks.get node ≠ .unvisited) (stack : search.stack = ⟨node, []⟩ :: below) :
    Ledger arcs (search.leave node below) (done ++ [.leave node]) := by
  obtain ⟨entered, left, examined⟩ := ledger
  rw [stack] at left
  rw [waiting, stack] at examined
  refine ⟨?_, ?_, ?_⟩
  · rw [fresh_leave visited, List.filterMap_append, List.append_assoc]
    exact entered
  · rw [fresh_leave visited, List.filterMap_append, List.append_assoc]
    exact left
  · rw [waiting, fresh_leave visited, List.filterMap_append, List.append_assoc]
    exact examined

/-- An arc that is examined waits no longer. -/
theorem examine (ledger : Ledger arcs search done) {node : Fin n} {arc : Arc n}
    {pending : List (Arc n)} {below : List (Frame n)}
    (stack : search.stack = ⟨node, arc :: pending⟩ :: below) :
    Ledger arcs { search with stack := ⟨node, pending⟩ :: below } (done ++ [.examine arc]) := by
  obtain ⟨entered, left, examined⟩ := ledger
  rw [stack] at left
  rw [waiting, stack] at examined
  refine ⟨?_, ?_, ?_⟩
  · rw [List.filterMap_append, List.append_assoc]
    exact entered
  · rw [List.filterMap_append, List.append_assoc]
    exact left
  · rw [List.filterMap_append, List.append_assoc]
    exact examined

theorem close (ledger : Ledger arcs search done) (node : Fin n) (arc : Arc n) (position : Nat) :
    Ledger arcs (search.close node arc position) done :=
  ⟨ledger.entered, ledger.left, ledger.examined⟩

/-- What the search does next goes into the ledger. -/
theorem advance (ledger : Ledger arcs search done) (traced : Traced search)
    (roots : List (Fin n)) :
    Ledger arcs (Search.advance arcs roots search).2 (done ++ deeds roots search) := by
  cases stack : search.stack with
  | nil =>
    cases roots with
    | nil => simpa [Search.advance, deeds, stack] using ledger
    | cons root later =>
      simp only [advance_root stack, deeds, stack, deedsAt]
      split
      · rename_i isNew
        exact ledger.enter isNew
      · simpa using ledger
  | cons top below =>
    obtain ⟨node, pending⟩ := top
    rw [advance_step stack]
    cases pending with
    | nil =>
      obtain ⟨position, onPath⟩ := traced.on_path (stack ▸ List.mem_cons_self ..)
      simp only [deeds, stack]
      exact ledger.leave (by simp [onPath]) stack
    | cons arc pending =>
      have examined := ledger.examine stack
      simp only [deeds, stack, deedsAt]
      cases mark : search.marks.get arc.target with
      | unvisited =>
        rw [step_descend mark, if_pos rfl, List.append_cons]
        exact examined.enter mark
      | onPath position =>
        rw [step_close mark, if_neg (by simp)]
        exact examined.close node arc position
      | finished =>
        rw [step_skip mark, if_neg (by simp)]
        exact examined

end Ledger

/-- The ledger is kept at every moment. -/
theorem history_ledger (arcs : Arcs n) (step : Nat) :
    Ledger arcs (moment arcs step) (history arcs step) := by
  induction step with
  | zero => exact .start
  | succ step ih => exact ih.advance (moment_reachable arcs step).traced (course arcs step).1

/-- What was entered and not left yet is on the stack. -/
theorem entered_perm (arcs : Arcs n) (step : Nat) :
    (entered arcs step).Perm (left arcs step ++ (moment arcs step).stack.map (·.node)) := by
  have ledger := history_ledger arcs step
  have both := ledger.entered.trans ledger.left.symm
  rw [← List.append_assoc] at both
  exact (List.perm_append_right_iff _).mp both

/-- The nodes that were entered are those that are visited. -/
theorem mem_entered_iff {step : Nat} {node : Fin n} :
    node ∈ entered arcs step ↔ (moment arcs step).marks.get node ≠ .unvisited := by
  have whole := (history_ledger arcs step).entered
  have nodup := whole.nodup_iff.mpr (List.nodup_finRange n)
  have isFresh : node ∈ (moment arcs step).fresh ↔
      (moment arcs step).marks.get node = .unvisited := by
    simp [fresh]
  constructor
  · intro member unvisited
    exact List.disjoint_of_nodup_append nodup member (isFresh.mpr unvisited)
  · intro visited
    have listed := whole.mem_iff.mpr (List.mem_finRange node)
    exact (List.mem_append.mp listed).resolve_right fun member => visited (isFresh.mp member)

section Progress

variable {top : Frame n} {below : List (Frame n)} {step later : Nat}

private theorem left?_deedsAt (search : Search n) (node : Fin n) :
    (search.deedsAt node).filterMap (·.left?) = [] := by
  unfold deedsAt
  split <;> rfl

private theorem examined?_deedsAt (search : Search n) (node : Fin n) :
    (search.deedsAt node).filterMap (·.examined?) = [] := by
  unfold deedsAt
  split <;> rfl

/-- Without anything on the stack no node is left and no arc examined. -/
theorem deeds_idle (idle : search.stack = []) (roots : List (Fin n)) :
    (deeds roots search).filterMap (·.left?) = [] ∧
      (deeds roots search).filterMap (·.examined?) = [] := by
  cases roots with
  | nil => simp [deeds, idle]
  | cons root roots => simp only [deeds, idle, left?_deedsAt, examined?_deedsAt, and_self]

private theorem deeds_leave (stack : search.stack = top :: below) (none : top.pending = [])
    (roots : List (Fin n)) : deeds roots search = [.leave top.node] := by
  obtain ⟨node, pending⟩ := top
  obtain rfl : pending = [] := none
  simp only [deeds, stack]

private theorem deeds_examine {arc : Arc n} {pending : List (Arc n)}
    (stack : search.stack = top :: below)
    (waits : top.pending = arc :: pending) (roots : List (Fin n)) :
    deeds roots search = .examine arc :: search.deedsAt arc.target := by
  obtain ⟨node, waiting⟩ := top
  obtain rfl : waiting = arc :: pending := waits
  simp only [deeds, stack]

private theorem course_succ (arcs : Arcs n) (step : Nat) :
    course arcs (step + 1) = advance arcs (course arcs step).1 (moment arcs step) := rfl

private theorem left_succ (arcs : Arcs n) (step : Nat) :
    left arcs (step + 1) = left arcs step ++
      (deeds (course arcs step).1 (moment arcs step)).filterMap (·.left?) :=
  List.filterMap_append

private theorem examined_succ (arcs : Arcs n) (step : Nat) :
    examined arcs (step + 1) = examined arcs step ++
      (deeds (course arcs step).1 (moment arcs step)).filterMap (·.examined?) :=
  List.filterMap_append

/-- With a node on the stack, either this node is left or one more of its arcs is examined. -/
theorem moment_progress (stack : (moment arcs step).stack = top :: below) :
    (left arcs (step + 1) = left arcs step ++ [top.node] ∧
      examined arcs (step + 1) = examined arcs step ∧
      (moment arcs (step + 1)).marks.get top.node = .finished) ∨
    ∃ arc ∈ top.pending, left arcs (step + 1) = left arcs step ∧
      examined arcs (step + 1) = examined arcs step ++ [arc] := by
  rw [left_succ, examined_succ]
  cases waits : top.pending with
  | nil =>
    have next : moment arcs (step + 1) = (moment arcs step).leave top.node below := by
      have here : moment arcs (step + 1) = (moment arcs step).step arcs top below :=
        congrArg Prod.snd (advance_step stack)
      rw [here, Search.step, waits]
    rw [deeds_leave stack waits]
    refine .inl ⟨rfl, List.append_nil _, ?_⟩
    rw [next, leave_mark, if_pos rfl]
  | cons arc pending =>
    rw [deeds_examine stack waits]
    refine .inr ⟨arc, List.mem_cons_self .., ?_, ?_⟩
    · rw [List.filterMap_cons_none rfl, left?_deedsAt, List.append_nil]
    · rw [List.filterMap_cons, examined?_deedsAt]
      rfl

/-- No root is to come and nothing is on the stack. -/
def Ended (arcs : Arcs n) (step : Nat) : Prop :=
  (course arcs step).1 = [] ∧ (moment arcs step).stack = []

/-- After the end nothing happens any more. -/
theorem Ended.course_eq (ended : Ended arcs step) (order : step ≤ later) :
    course arcs later = course arcs step := by
  induction order with
  | refl => rfl
  | step _ ih =>
    obtain ⟨none, idle⟩ := ended
    have stays : Search.advance arcs [] (moment arcs step) = ([], moment arcs step) := by
      simp only [Search.advance, idle]
    rw [course, ih, none]
    exact stays.trans (Prod.ext none.symm rfl)

/-- Until the end every moment passes a root, leaves a node or examines an arc. -/
theorem count_moments (arcs : Arcs n) (step : Nat) :
    (∃ earlier ≤ step, Ended arcs earlier) ∨
      (course arcs step).1.length + step =
        n + ((left arcs step).length + (examined arcs step).length) := by
  induction step with
  | zero => exact .inr (by simp [course, left, examined, history])
  | succ step ih =>
    rcases ih with ⟨earlier, order, ended⟩ | count
    · exact .inl ⟨earlier, Nat.le_succ_of_le order, ended⟩
    cases stack : (moment arcs step).stack with
    | nil =>
      cases roots : (course arcs step).1 with
      | nil => exact .inl ⟨step, Nat.le_succ step, roots, stack⟩
      | cons root later =>
        obtain ⟨noneLeft, noneExamined⟩ := deeds_idle stack (course arcs step).1
        have passed : (course arcs (step + 1)).1 = later := by
          rw [course_succ, roots, advance_root stack]
        refine .inr ?_
        rw [left_succ, examined_succ, noneLeft, noneExamined, passed]
        simp only [roots, List.length_cons, List.append_nil] at count ⊢
        omega
    | cons top below =>
      have same : (course arcs (step + 1)).1 = (course arcs step).1 := by
        rw [course_succ, advance_step stack]
      refine .inr ?_
      rw [same]
      rcases moment_progress stack with ⟨more, kept, _⟩ | ⟨arc, _, kept, more⟩
      · rw [more, kept, List.length_append, List.length_singleton]
        omega
      · rw [more, kept, List.length_append, List.length_singleton]
        omega

/-- The number of moments that the search takes: one for each root, one for each node that is left
and one for each arc. -/
def duration (arcs : Arcs n) : Nat := n + (n + ((List.finRange n).flatMap arcs.get).length)

private theorem ended_duration (arcs : Arcs n) : Ended arcs (duration arcs) := by
  rcases count_moments arcs (duration arcs) with ⟨earlier, order, ended⟩ | count
  · have same := ended.course_eq order
    exact ⟨same ▸ ended.1, congrArg (·.2.stack) same ▸ ended.2⟩
  · -- no more nodes can be left than there are, nor more arcs examined
    have ledger := history_ledger arcs (duration arcs)
    have nodes := ledger.left.length_eq
    have all := ledger.examined.length_eq
    simp only [List.length_append, List.length_map, List.length_finRange] at nodes all
    unfold left examined at count
    unfold duration at count nodes all ⊢
    constructor
    · apply List.eq_nil_of_length_eq_zero
      omega
    · apply List.eq_nil_of_length_eq_zero
      omega

/-- The search is at its end after as many moments. -/
theorem course_duration (arcs : Arcs n) : course arcs (duration arcs) = ([], all arcs) := by
  have here : course arcs 0 = (List.finRange n, Search.start n) := rfl
  obtain ⟨step, there⟩ := exists_course_visits here rfl
  have ended : Ended arcs step :=
    ⟨congrArg Prod.fst there, (congrArg (·.2.stack) there).trans (all_idle arcs)⟩
  rcases Nat.le_total step (duration arcs) with before | after
  · exact (ended.course_eq before).trans there
  · exact ((ended_duration arcs).course_eq after).symm.trans there

end Progress

private theorem fresh_eq_nil (visited : ∀ node, search.marks.get node ≠ .unvisited) :
    search.fresh = [] := by
  rw [fresh, List.filter_eq_nil_iff]
  intro node _
  simpa using visited node

/-- At the end every node was entered once and left once, and every arc examined once. -/
theorem ledger_duration (arcs : Arcs n) :
    (entered arcs (duration arcs)).Perm (List.finRange n) ∧
      (left arcs (duration arcs)).Perm (List.finRange n) ∧
      (examined arcs (duration arcs)).Perm ((List.finRange n).flatMap arcs.get) := by
  have last : moment arcs (duration arcs) = all arcs := congrArg Prod.snd (course_duration arcs)
  obtain ⟨entered, left, examined⟩ := history_ledger arcs (duration arcs)
  have none : (all arcs).fresh = [] := fresh_eq_nil (all_visited arcs)
  rw [last, none, List.append_nil] at entered
  rw [last, none, all_idle, List.map_nil, List.append_nil, List.append_nil] at left
  rw [last, waiting, none, all_idle, List.flatMap_nil, List.flatMap_nil, List.append_nil,
    List.append_nil] at examined
  exact ⟨entered, left, examined⟩

end Wiring.Graph.Search
