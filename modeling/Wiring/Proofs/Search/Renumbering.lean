import Mathlib.Tactic.Choose
import Wiring.Proofs.Search.Closing

/-! # Renumbered edges

The search passes on the numbers of edges and never looks at them. So searching renumbered arcs is
searching and renumbering what was found. Two families of arcs that lead to the same nodes in the
same order differ by their numbers alone, and their searches find the same.
-/

namespace Wiring.Graph

variable {n : Nat} (number : Nat → Nat)

def Arc.renumber (arc : Arc n) : Arc n := { arc with edge := number arc.edge }

def Frame.renumber (frame : Frame n) : Frame n :=
  { frame with pending := frame.pending.map (Arc.renumber number) }

def Arcs.renumber (arcs : Arcs n) : Arcs n := arcs.map (List.map (Arc.renumber number))

namespace Search

/-- Renumber the edges pending on the stack and the circular ones. -/
def renumber (search : Search n) : Search n :=
  { search with
    stack := search.stack.map (Frame.renumber number)
    circular := search.circular.map number }

theorem get_renumber (arcs : Arcs n) (node : Fin n) :
    (arcs.renumber number).get node = (arcs.get node).map (Arc.renumber number) := by
  change (arcs.map _)[node.val] = _
  rw [Vector.getElem_map]
  rfl

section Naturality

variable (arcs : Arcs n) (search : Search n)

private theorem renumber_enter (node : Fin n) :
    (search.enter arcs node).renumber number =
      (search.renumber number).enter (arcs.renumber number) node := by
  simp only [enter, renumber, get_renumber, List.map_cons, Frame.renumber]

private theorem renumber_close (node : Fin n) (arc : Arc n) (position : Nat) :
    (search.close node arc position).renumber number =
      (search.renumber number).close node (arc.renumber number) position := by
  simp only [close, renumber, Array.map_push]
  rfl

private theorem renumber_examine (node : Fin n) (arc : Arc n) :
    (search.examine arcs node arc).renumber number =
      (search.renumber number).examine (arcs.renumber number) node (arc.renumber number) := by
  simp only [examine, Arc.renumber]
  cases mark : search.marks.get arc.target with
  | unvisited =>
    simp only [renumber, mark]
    exact renumber_enter number arcs search arc.target
  | onPath position =>
    simp only [renumber, mark]
    exact renumber_close number search node arc position
  | finished => simp only [renumber, mark]

private theorem renumber_step (top : Frame n) (below : List (Frame n)) :
    (search.step arcs top below).renumber number =
      (search.renumber number).step (arcs.renumber number) (top.renumber number)
        (below.map (Frame.renumber number)) := by
  rcases top with ⟨node, pending⟩
  cases pending with
  | nil => rfl
  | cons arc pending => exact renumber_examine number arcs _ node arc

theorem renumber_run :
    (search.run arcs).renumber number = (search.renumber number).run (arcs.renumber number) := by
  fun_induction run arcs search with
  | case1 search empty =>
    rw [run_eq_self (by simp [renumber, empty])]
  | case2 search top below stack ih =>
    have stack' : (search.renumber number).stack =
        top.renumber number :: below.map (Frame.renumber number) := by
      simp [renumber, stack]
    rw [ih, renumber_step, ← run_eq_step stack']

private theorem renumber_visit (root : Fin n) :
    (search.visit arcs root).renumber number =
      (search.renumber number).visit (arcs.renumber number) root := by
  unfold visit
  by_cases fresh : search.marks.get root = .unvisited
  · rw [if_pos fresh, renumber_run, renumber_enter]
    exact (if_pos fresh).symm
  · rw [if_neg fresh]
    exact (if_neg fresh).symm

/-- Searching renumbered arcs is searching and renumbering what was found. -/
theorem renumber_all : (all arcs).renumber number = all (arcs.renumber number) := by
  have start : (start n).renumber number = start n := by simp [Search.start, renumber]
  unfold all
  rw [← List.foldl_hom (renumber number) fun search root =>
    (renumber_visit number arcs search root).symm, start]

end Naturality

section Congruence

variable {arcs arcs' : Arcs n} {node : Fin n} {k : Nat} {arc arc' : Arc n}

/-- Arcs that lead to the same nodes in the same order. -/
def SameTargets (arcs arcs' : Arcs n) : Prop :=
  ∀ node, (arcs.get node).map (·.target) = (arcs'.get node).map (·.target)

/-- A number tells a node and the place of an arc among those that leave it. -/
theorem Numbered.place_eq (numbered : Numbered arcs) {other : Fin n} {j : Nat} {twin : Arc n}
    (here : (arcs.get node)[k]? = some arc) (there : (arcs.get other)[j]? = some twin)
    (same : arc.edge = twin.edge) : node = other ∧ k = j := by
  obtain rfl := numbered.apart (List.mem_of_getElem? here) (List.mem_of_getElem? there) same
  have listed : k < ((arcs.get node).map (·.edge)).length := by
    simpa using (List.getElem?_eq_some_iff.mp here).1
  refine ⟨rfl, (List.getElem?_inj listed (numbered.nodup node)).mp ?_⟩
  rw [List.getElem?_map, List.getElem?_map, here, there, Option.map_some, Option.map_some, same]

/-- Numbers of arcs can be exchanged for those of other arcs with the same places. -/
theorem Numbered.exists_exchange (numbered : Numbered arcs) (arcs' : Arcs n) :
    ∃ number : Nat → Nat, ∀ (node : Fin n) (k : Nat) (arc arc' : Arc n),
      (arcs.get node)[k]? = some arc → (arcs'.get node)[k]? = some arc' →
      arc'.edge = number arc.edge := by
  have exchanged (edge : Nat) : ∃ edge', ∀ (node : Fin n) (k : Nat) (arc arc' : Arc n),
      (arcs.get node)[k]? = some arc → (arcs'.get node)[k]? = some arc' → arc.edge = edge →
      arc'.edge = edge' := by
    by_cases used : ∃ (node : Fin n) (k : Nat) (arc arc' : Arc n),
        (arcs.get node)[k]? = some arc ∧ (arcs'.get node)[k]? = some arc' ∧ arc.edge = edge
    · obtain ⟨node, k, arc, arc', here, there, rfl⟩ := used
      refine ⟨arc'.edge, fun other j twin twin' here' there' edge => ?_⟩
      obtain ⟨rfl, rfl⟩ := numbered.place_eq here' here edge
      rw [Option.some.inj (there'.symm.trans there)]
    · -- a number that no arc has may go anywhere
      exact ⟨0, fun node k arc arc' here there edge =>
        absurd ⟨node, k, arc, arc', here, there, edge⟩ used⟩
  choose number exchanged using exchanged
  exact ⟨number, fun node k arc arc' here there =>
    exchanged arc.edge node k arc arc' here there rfl⟩

/-- Arcs that lead to the same nodes in the same order are renumbered arcs. -/
theorem SameTargets.exists_renumber (same : SameTargets arcs arcs') (numbered : Numbered arcs) :
    ∃ number, arcs' = arcs.renumber number := by
  obtain ⟨number, exchanged⟩ := numbered.exists_exchange arcs'
  refine ⟨number, Vector.ext fun i bound => ?_⟩
  change arcs'.get ⟨i, bound⟩ = (arcs.renumber number).get ⟨i, bound⟩
  rw [get_renumber]
  refine List.ext_getElem? fun k => ?_
  have target := congrArg (·[k]?) (same ⟨i, bound⟩)
  simp only [List.getElem?_map] at target ⊢
  cases here : (arcs.get ⟨i, bound⟩)[k]? with
  | none =>
    rw [here] at target
    exact Option.map_eq_none_iff.mp target.symm
  | some arc =>
    rw [here, Option.map_some] at target
    obtain ⟨arc', there, target⟩ := Option.map_eq_some_iff.mp target.symm
    rw [there, Option.map_some, Arc.renumber, ← exchanged _ k arc arc' here there, ← target]

/-- Searches of arcs to the same nodes in the same order find the same cycles. -/
theorem SameTargets.cycles_eq (same : SameTargets arcs arcs') (numbered : Numbered arcs) :
    (all arcs').cycles = (all arcs).cycles := by
  obtain ⟨number, rfl⟩ := same.exists_renumber numbered
  rw [← renumber_all]
  rfl

/-- Arcs with the same place among those of their node are circular together. -/
theorem SameTargets.circular (same : SameTargets arcs arcs') (numbered : Numbered arcs)
    (here : (arcs.get node)[k]? = some arc) (there : (arcs'.get node)[k]? = some arc')
    (circular : arc.edge ∈ (all arcs).circular) : arc'.edge ∈ (all arcs').circular := by
  obtain ⟨number, rfl⟩ := same.exists_renumber numbered
  rw [get_renumber, List.getElem?_map, here, Option.map_some] at there
  obtain rfl := Option.some.inj there
  rw [← renumber_all]
  exact Array.mem_map_of_mem circular

end Congruence

end Search

end Wiring.Graph
