import Wiring.Proofs.Search.Path

/-! # Every way round is broken

An arc that is examined leads back onto the path, and is then circular, or it leads to a node that
will be finished earlier than its own. So no way along arcs that are not circular goes on for ever,
and what remains without the circular arcs is well-founded. The order in which nodes are finished
is not kept by the search: accessibility takes its place.
-/

namespace Wiring.Graph.Search

variable {n : Nat} {arcs : Arcs n} {search next : Search n}

/-- An arc from `source` to `target` is there that is not circular. -/
def Open (arcs : Arcs n) (circular : Array Nat) (target source : Fin n) : Prop :=
  ∃ arc ∈ arcs.get source, arc.target = target ∧ arc.edge ∉ circular

/-- No way from the node along open arcs goes on for ever. -/
def Settled (arcs : Arcs n) (circular : Array Nat) (node : Fin n) : Prop :=
  Acc (Open arcs circular) node

/-- A node whose arcs are circular or lead to settled nodes is settled. -/
theorem Settled.of_arcs {circular : Array Nat} {node : Fin n}
    (arcsOk : ∀ arc ∈ arcs.get node, arc.edge ∈ circular ∨ Settled arcs circular arc.target) :
    Settled arcs circular node := by
  refine .intro node ?_
  rintro target ⟨arc, leaves, rfl, isOpen⟩
  exact (arcsOk arc leaves).resolve_left isOpen

theorem Settled.mono {circular more : Array Nat} {node : Fin n}
    (subset : ∀ place ∈ circular, place ∈ more) (settled : Settled arcs circular node) :
    Settled arcs more node := by
  refine Subrelation.accessible ?_ settled
  rintro target source ⟨arc, leaves, reaches, isOpen⟩
  exact ⟨arc, leaves, reaches, fun closed => isOpen (subset _ closed)⟩

/-- Frames as they lie on each other. `above` is the node that was entered from the top frame. Each
frame divides the arcs of its node: those that were examined are circular, or lead to a settled
node, or to the node above. -/
inductive Nested (arcs : Arcs n) (circular : Array Nat) :
    Option (Fin n) → List (Frame n) → Prop
  | nil {above : Option (Fin n)} : Nested arcs circular above []
  | cons {above : Option (Fin n)} {node : Fin n} {pending : List (Arc n)}
      {below : List (Frame n)} (examined : List (Arc n)) (divides : examined ++ pending = arcs.get node)
      (led : ∀ arc ∈ examined, arc.edge ∈ circular ∨ Settled arcs circular arc.target ∨
        above = some arc.target)
      (entered : ∀ child, above = some child → ∃ arc ∈ examined, arc.target = child)
      (rest : Nested arcs circular (some node) below) :
      Nested arcs circular above (⟨node, pending⟩ :: below)

namespace Nested

variable {circular more : Array Nat} {above : Option (Fin n)} {stack below : List (Frame n)}

theorem mono (subset : ∀ place ∈ circular, place ∈ more) (nested : Nested arcs circular above stack) :
    Nested arcs more above stack := by
  induction nested with
  | nil => exact .nil
  | cons examined divides led entered _ ih =>
    refine .cons examined divides ?_ entered ih
    intro arc member
    rcases led arc member with closed | settled | child
    · exact .inl (subset _ closed)
    · exact .inr (.inl (settled.mono subset))
    · exact .inr (.inr child)

/-- A node is entered with all its arcs pending. -/
theorem enter (node : Fin n) (nested : Nested arcs circular (some node) stack) :
    Nested arcs circular none (⟨node, arcs.get node⟩ :: stack) :=
  .cons [] (List.nil_append _) nofun nofun nested

/-- An arc is examined, which may enter the node it leads to. -/
theorem examine {node : Fin n} {arc : Arc n} {pending : List (Arc n)}
    (nested : Nested arcs circular none (⟨node, arc :: pending⟩ :: below))
    (led : arc.edge ∈ circular ∨ Settled arcs circular arc.target ∨ above = some arc.target)
    (entered : ∀ child, above = some child → arc.target = child) :
    Nested arcs circular above (⟨node, pending⟩ :: below) := by
  cases nested with
  | cons examined divides before _ rest =>
    refine .cons (examined ++ [arc]) ?_ ?_ ?_ rest
    · rw [← divides, List.append_assoc, List.singleton_append]
    · intro other member
      rcases List.mem_append.mp member with earlier | last
      · rcases before other earlier with closed | settled | child
        · exact .inl closed
        · exact .inr (.inl settled)
        · nomatch child
      · rw [List.mem_singleton.mp last]
        exact led
    · intro child same
      exact ⟨arc, List.mem_append_right _ (List.mem_singleton_self arc), entered child same⟩

/-- A node without pending arcs is settled. -/
theorem settled {node : Fin n} (nested : Nested arcs circular none (⟨node, []⟩ :: below)) :
    Settled arcs circular node := by
  cases nested with
  | cons examined divides led =>
    apply Settled.of_arcs
    intro arc leaves
    rw [← divides, List.append_nil] at leaves
    rcases led arc leaves with closed | settled | child
    · exact .inl closed
    · exact .inr settled
    · nomatch child

/-- When the node above is settled, it no longer counts as entered. -/
theorem leave {node : Fin n} (settled : Settled arcs circular node)
    (nested : Nested arcs circular (some node) stack) : Nested arcs circular none stack := by
  cases nested with
  | nil => exact .nil
  | cons examined divides led _ rest =>
    refine .cons examined divides ?_ nofun rest
    intro arc member
    rcases led arc member with closed | before | child
    · exact .inl closed
    · exact .inr (.inl before)
    · exact .inr (.inl (Option.some.inj child ▸ settled))

theorem tail {frame : Frame n} (nested : Nested arcs circular above (frame :: below)) :
    Nested arcs circular (some frame.node) below := by
  cases nested with
  | cons _ _ _ _ rest => exact rest

/-- What is pending in a frame is the end of the list of its node's arcs. -/
theorem pending_suffix {frame : Frame n} (nested : Nested arcs circular above stack)
    (standing : frame ∈ stack) : frame.pending <:+ arcs.get frame.node := by
  induction nested with
  | nil => simp at standing
  | cons examined divides _ _ _ ih =>
    rcases List.mem_cons.mp standing with rfl | deeper
    · exact ⟨examined, divides⟩
    · exact ih deeper

end Nested

theorem enter_finished {node other : Fin n}
    (done : (search.enter arcs node).marks.get other = .finished) :
    search.marks.get other = .finished := by
  rw [enter_mark] at done
  split at done
  · nomatch done
  · exact done

/-- The stack is well nested, and finished nodes are settled. -/
structure Ordered (arcs : Arcs n) (search : Search n) : Prop where
  nested : Nested arcs search.circular none search.stack
  settled : ∀ node, search.marks.get node = .finished → Settled arcs search.circular node

namespace Ordered

theorem start : Ordered arcs (start n) where
  nested := .nil
  settled node done := by simp [start_mark] at done

theorem move (ordered : Ordered arcs search) (move : Move arcs search next) :
    Ordered arcs next := by
  obtain ⟨nested, settled⟩ := ordered
  cases move with
  | @root root idle fresh =>
    rw [idle] at nested
    have stack : (search.enter arcs root).stack = [⟨root, arcs.get root⟩] := by
      simp only [Search.enter, idle]
    refine ⟨stack ▸ .enter root .nil, ?_⟩
    intro other done
    have earlier := enter_finished done
    exact settled other earlier
  | @leave node below stack =>
    rw [stack] at nested
    refine ⟨.leave nested.settled nested.tail, ?_⟩
    intro other done
    rw [leave_mark] at done
    split at done
    · rename_i same
      exact same ▸ nested.settled
    · exact settled other done
  | @descend node arc pending below stack fresh =>
    rw [stack] at nested
    have deeper := nested.examine (.inr (.inr rfl)) (fun child same => Option.some.inj same)
    refine ⟨.enter arc.target deeper, ?_⟩
    intro other done
    have earlier := enter_finished done
    exact settled other earlier
  | @close node arc pending below position stack back =>
    rw [stack] at nested
    -- one more circular edge leaves fewer open arcs, so what was settled stays so
    have subset (place : Nat) (member : place ∈ search.circular) :
        place ∈ search.circular.push arc.edge := Array.mem_push_of_mem _ member
    refine ⟨(nested.mono subset).examine (.inl Array.mem_push_self) (by simp), ?_⟩
    intro other done
    exact (settled other done).mono subset
  | @skip node arc pending below stack done =>
    rw [stack] at nested
    exact ⟨nested.examine (.inr (.inl (settled _ done))) (by simp), settled⟩

end Ordered

theorem Reachable.ordered (reachable : Reachable arcs search) : Ordered arcs search := by
  induction reachable with
  | start => exact .start
  | move _ move ih => exact ih.move move

/-- Without the circular arcs that the search reports, every way comes to an end. -/
theorem all_open_wellFounded (arcs : Arcs n) : WellFounded (Open arcs (all arcs).circular) :=
  ⟨fun node => (all_reachable arcs).ordered.settled node (all_finished arcs node)⟩

end Wiring.Graph.Search
