import Mathlib.Data.List.Chain
import Wiring.Proofs.Search.Settled

/-! # What the search reports

Each report of the search is a closing: an arc together with the part of the path that leads from
its target back to its source. Circular edges are the arcs of the closings, and cycles are the
parts of the path, loops left out; so the two lists go in step. If the arcs of all nodes have
different numbers, no edge is reported twice.
-/

namespace Wiring.Graph.Search

variable {n : Nat} {arcs : Arcs n} {search next : Search n}

def Joined (arcs : Arcs n) (source target : Fin n) : Prop :=
  ∃ arc ∈ arcs.get source, arc.target = target

/-- Along a stack, each node was entered from the one below. -/
theorem Nested.joined {circular : Array Nat} {above : Option (Fin n)} {stack : List (Frame n)}
    (nested : Nested arcs circular above stack) :
    (stack.map (·.node)).IsChain fun child parent => Joined arcs parent child := by
  induction nested with
  | nil => exact .nil
  | @cons above node pending below _ _ _ _ rest ih =>
    cases rest with
    | nil => exact .singleton node
    | cons examined divides _ entered _ =>
      obtain ⟨arc, member, reaches⟩ := entered node rfl
      exact .cons_cons ⟨arc, divides ▸ List.mem_append_left _ member, reaches⟩ ih

/-- Each node on the path has an arc to the next one. -/
theorem Reachable.path_joined (reachable : Reachable arcs search) :
    search.path.toList.IsChain (Joined arcs) := by
  rw [reachable.traced.path, List.isChain_reverse]
  exact reachable.ordered.nested.joined

/-- An arc and a simple path from its target back to its source. -/
structure Closing (arcs : Arcs n) where
  source : Fin n
  arc : Arc n
  ring : List (Fin n)
  leaves : arc ∈ arcs.get source
  first : ring.head? = some arc.target
  last : ring.getLast? = some source
  simple : ring.Nodup
  joined : ring.IsChain (Joined arcs)

def Closing.isLoop (closing : Closing arcs) : Bool := closing.arc.target = closing.source

/-- Circular edges and cycles are those of the same closings. -/
structure Reports (search : Search n) (closings : List (Closing arcs)) : Prop where
  circular : search.circular.toList = closings.map (·.arc.edge)
  cycles : search.cycles.toList = (closings.filter fun closing => !closing.isLoop).map (·.ring)

/-- An arc of the top node that leads back onto the path closes a ring. -/
theorem Reachable.closing (reachable : Reachable arcs search) {node : Fin n} {arc : Arc n}
    {pending : List (Arc n)} {below : List (Frame n)} {position : Nat}
    (stack : search.stack = ⟨node, arc :: pending⟩ :: below)
    (back : search.marks.get arc.target = .onPath position) :
    ∃ closing : Closing arcs, closing.source = node ∧ closing.arc = arc ∧
      closing.ring = search.path.toList.drop position := by
  have traced := reachable.traced
  have found := (traced.position arc.target position).mp back
  have within : position < search.path.toList.length := (List.getElem?_eq_some_iff.mp found).1
  have standing : ⟨node, arc :: pending⟩ ∈ search.stack := stack ▸ List.mem_cons_self ..
  have suffix := reachable.ordered.nested.pending_suffix standing
  refine ⟨⟨node, arc, search.path.toList.drop position, ?_, ?_, ?_, ?_, ?_⟩, rfl, rfl, rfl⟩
  · exact suffix.subset (List.mem_cons_self ..)
  · rw [List.head?_drop, found]
  · rw [List.getLast?_drop, if_neg (by omega), traced.path_eq stack, List.getLast?_concat]
  · exact traced.nodup.sublist (List.drop_sublist ..)
  · exact reachable.path_joined.drop position

/-- A move adds to the closings one that lies on the path, or none. -/
theorem Reports.move {closings : List (Closing arcs)} (reports : Reports search closings)
    (reachable : Reachable arcs search) (move : Move arcs search next) :
    ∃ added : List (Closing arcs), Reports next (closings ++ added) ∧
      ∀ closing ∈ added, ∃ pending below position,
        search.stack = ⟨closing.source, closing.arc :: pending⟩ :: below ∧
        search.marks.get closing.arc.target = .onPath position ∧
        closing.ring = search.path.toList.drop position := by
  obtain ⟨circular, cycles⟩ := reports
  have unchanged : closings ++ [] = closings := List.append_nil _
  cases move with
  | root idle fresh => exact ⟨[], unchanged.symm ▸ ⟨circular, cycles⟩, by simp⟩
  | leave stack => exact ⟨[], unchanged.symm ▸ ⟨circular, cycles⟩, by simp⟩
  | descend stack fresh => exact ⟨[], unchanged.symm ▸ ⟨circular, cycles⟩, by simp⟩
  | @close node arc pending below position stack back =>
    obtain ⟨closing, source, same, ring⟩ := reachable.closing stack back
    refine ⟨[closing], ⟨?_, ?_⟩, ?_⟩
    · simp only [Search.close, Array.toList_push, circular, List.map_append, List.map_singleton, same]
    · simp only [Search.close, List.filter_append, List.map_append, ← cycles]
      by_cases loop : arc.target = node
      · simp [Closing.isLoop, same, source, loop]
      · simp [Closing.isLoop, same, source, loop, ring]
    · intro other member
      rw [List.mem_singleton.mp member, source, same]
      exact ⟨pending, below, position, stack, back, ring⟩
  | skip stack done => exact ⟨[], unchanged.symm ▸ ⟨circular, cycles⟩, by simp⟩

/-- The arcs of all nodes have different numbers. -/
structure Numbered (arcs : Arcs n) : Prop where
  apart : ∀ {source other : Fin n} {arc twin : Arc n}, arc ∈ arcs.get source → twin ∈ arcs.get other →
    arc.edge = twin.edge → source = other
  nodup : ∀ node : Fin n, ((arcs.get node).map (·.edge)).Nodup

/-- No edge is circular twice, nor before it is examined. -/
structure Fresh (arcs : Arcs n) (search : Search n) : Prop where
  once : search.circular.toList.Nodup
  pending : ∀ frame ∈ search.stack, ∀ arc ∈ frame.pending, arc.edge ∉ search.circular
  unvisited : ∀ node : Fin n, search.marks.get node = .unvisited →
    ∀ arc ∈ arcs.get node, arc.edge ∉ search.circular

namespace Fresh

theorem start : Fresh arcs (start n) where
  once := .nil
  pending := nofun
  unvisited _ _ _ _ := by simp [Search.start]

theorem advance (fresh : Fresh arcs search) {node : Fin n} {arc : Arc n} {pending : List (Arc n)}
    {below : List (Frame n)} (stack : search.stack = ⟨node, arc :: pending⟩ :: below) :
    Fresh arcs { search with stack := ⟨node, pending⟩ :: below } where
  once := fresh.once
  pending frame standing other member := by
    rcases List.mem_cons.mp standing with rfl | deeper
    · exact fresh.pending _ (stack ▸ List.mem_cons_self ..) other (List.mem_cons_of_mem _ member)
    · exact fresh.pending frame (stack ▸ List.mem_cons_of_mem _ deeper) other member
  unvisited := fresh.unvisited

theorem enter (fresh : Fresh arcs search) {node : Fin n}
    (unvisited : search.marks.get node = .unvisited) : Fresh arcs (search.enter arcs node) where
  once := fresh.once
  pending frame standing other member := by
    rcases List.mem_cons.mp standing with rfl | deeper
    · exact fresh.unvisited node unvisited other member
    · exact fresh.pending frame deeper other member
  unvisited other still := by
    rw [enter_mark] at still
    split at still
    · nomatch still
    · exact fresh.unvisited other still

theorem leave (fresh : Fresh arcs search) {node : Fin n} {below : List (Frame n)}
    (stack : search.stack = ⟨node, []⟩ :: below) : Fresh arcs (search.leave node below) where
  once := fresh.once
  pending frame standing other member :=
    fresh.pending frame (stack ▸ List.mem_cons_of_mem _ standing) other member
  unvisited other still := by
    rw [leave_mark] at still
    split at still
    · nomatch still
    · exact fresh.unvisited other still

/-- An arc that is being examined has a number that no other pending arc has. -/
theorem close (fresh : Fresh arcs search) (numbered : Numbered arcs)
    (reachable : Reachable arcs search) {node : Fin n} {arc : Arc n} {pending : List (Arc n)}
    {below : List (Frame n)} (stack : search.stack = ⟨node, arc :: pending⟩ :: below)
    (position : Nat) :
    Fresh arcs ({ search with stack := ⟨node, pending⟩ :: below }.close node arc position) := by
  have top : ⟨node, arc :: pending⟩ ∈ search.stack := stack ▸ List.mem_cons_self ..
  have suffix := reachable.ordered.nested.pending_suffix top
  have leaves : arc ∈ arcs.get node := suffix.subset (List.mem_cons_self ..)
  have advanced := fresh.advance stack
  refine ⟨?_, ?_, ?_⟩
  · have new := fresh.pending _ top arc (List.mem_cons_self ..)
    simp only [Search.close, Array.toList_push, ← List.concat_eq_append]
    exact fresh.once.concat (by simpa using new)
  · intro frame standing other member
    have old := advanced.pending frame standing other member
    simp only [Search.close, Array.mem_push, not_or]
    refine ⟨old, fun same => ?_⟩
    rcases List.mem_cons.mp standing with rfl | deeper
    · have nodup := (numbered.nodup node).sublist (suffix.sublist.map _)
      exact (List.nodup_cons.mp nodup).1 (List.mem_map.mpr ⟨other, member, same⟩)
    · have inside : frame ∈ search.stack := stack ▸ List.mem_cons_of_mem _ deeper
      have belongs := (reachable.ordered.nested.pending_suffix inside).subset member
      have nodup := reachable.traced.stack_nodup
      rw [stack, List.map_cons, List.nodup_cons] at nodup
      exact nodup.1 (List.mem_map.mpr ⟨frame, deeper, numbered.apart belongs leaves same⟩)
  · intro other still twin member
    have old := advanced.unvisited other still twin member
    simp only [Search.close, Array.mem_push, not_or]
    refine ⟨old, fun same => ?_⟩
    obtain ⟨place, onPath⟩ := reachable.traced.on_path top
    obtain rfl := numbered.apart member leaves same
    cases onPath.symm.trans still

theorem move (fresh : Fresh arcs search) (numbered : Numbered arcs)
    (reachable : Reachable arcs search) (move : Move arcs search next) : Fresh arcs next := by
  cases move with
  | root idle unvisited => exact fresh.enter unvisited
  | leave stack => exact fresh.leave stack
  | descend stack unvisited => exact (fresh.advance stack).enter unvisited
  | close stack back => exact fresh.close numbered reachable stack _
  | skip stack done => exact fresh.advance stack

end Fresh

theorem Reachable.fresh (numbered : Numbered arcs) (reachable : Reachable arcs search) :
    Fresh arcs search := by
  induction reachable with
  | start => exact .start
  | move sofar move ih => exact ih.move numbered sofar move

end Wiring.Graph.Search
