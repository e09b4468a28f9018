import Mathlib.Data.List.TakeWhile
import Wiring.Proofs.Search.Closing
import Wiring.Proofs.Search.Lines

/-! # Arcs that lead back

The lines alone tell what the search reports. An arc is circular exactly if it leads to a node on
the line of its source, and the cycle that it closes is the part of this line from its target on.
An arc to any other node leads downwards, or to a node that was finished before.
-/

namespace Wiring.Graph.Search

variable {n : Nat} {arcs : Arcs n} {search next : Search n} {source node other : Fin n}
  {arc : Arc n} {step : Nat}

/-- An arc that was examined leads to a visited node, and is circular if that is on the line of its
source. -/
structure Judged (arcs : Arcs n) (search : Search n) (source : Fin n) (arc : Arc n) : Prop where
  visited : search.marks.get arc.target ≠ .unvisited
  reported : arc.target ∈ line arcs source → arc.edge ∈ search.circular

/-- The arcs of nodes on the stack are pending or judged, and those of finished nodes are judged. -/
structure Examined (arcs : Arcs n) (search : Search n) : Prop where
  standing : ∀ frame ∈ search.stack, ∀ arc ∈ arcs.get frame.node,
    arc ∈ frame.pending ∨ Judged arcs search frame.node arc
  finished : ∀ node, search.marks.get node = .finished →
    ∀ arc ∈ arcs.get node, Judged arcs search node arc

/-- A circular edge stays circular. -/
theorem Move.circular (move : Move arcs search next) {place : Nat}
    (circular : place ∈ search.circular) : place ∈ next.circular := by
  cases move with
  | root idle fresh => exact circular
  | leave stack => exact circular
  | descend stack fresh => exact circular
  | close stack back => exact Array.mem_push_of_mem _ circular
  | skip stack done => exact circular

theorem Judged.move (judged : Judged arcs search source arc) (move : Move arcs search next) :
    Judged arcs next source arc where
  visited := move.visited judged.visited
  reported onLine := move.circular (judged.reported onLine)

namespace Examined

theorem start : Examined arcs (start n) where
  standing := by simp [Search.start]
  finished node done := by simp [start_mark] at done

/-- Once an arc is judged, the frames with the arcs after it still have theirs pending or judged. -/
theorem advance {pending : List (Arc n)} {below : List (Frame n)}
    (examined : Examined arcs search) (move : Move arcs search next)
    (stack : search.stack = ⟨node, arc :: pending⟩ :: below) (judged : Judged arcs next node arc) :
    ∀ frame ∈ ⟨node, pending⟩ :: below, ∀ arc ∈ arcs.get frame.node,
      arc ∈ frame.pending ∨ Judged arcs next frame.node arc := by
  have top : ⟨node, arc :: pending⟩ ∈ search.stack := stack ▸ List.mem_cons_self ..
  intro frame standing other leaves
  rcases List.mem_cons.mp standing with rfl | deeper
  · rcases examined.standing _ top other leaves with waits | before
    · rcases List.mem_cons.mp waits with rfl | later
      · exact .inr judged
      · exact .inl later
    · exact .inr (before.move move)
  · exact (examined.standing frame (stack ▸ List.mem_cons_of_mem _ deeper) other leaves).imp_right
      fun before => before.move move

/-- A move judges the arc that it examines: the node on top has the path for its line. -/
theorem move (examined : Examined arcs search) (move : Move arcs search next)
    (lines : ∀ {node pending below}, search.stack = ⟨node, pending⟩ :: below → ∀ {other},
      other ∈ line arcs node → ∃ position, search.marks.get other = .onPath position) :
    Examined arcs next := by
  have finished (node : Fin n) (done : search.marks.get node = .finished) :
      ∀ arc ∈ arcs.get node, Judged arcs next node arc :=
    fun arc leaves => (examined.finished node done arc leaves).move move
  cases id move with
  | root idle fresh =>
    refine ⟨?_, fun node done => finished node (enter_finished done)⟩
    intro frame standing arc leaves
    simp only [Search.enter, idle, List.mem_singleton] at standing
    exact .inl (standing ▸ leaves)
  | @leave node below stack =>
    have last := examined.standing _ (stack ▸ List.mem_cons_self ..)
    refine ⟨fun frame standing arc leaves => ?_, fun other done => ?_⟩
    · exact (examined.standing frame (stack ▸ List.mem_cons_of_mem _ standing) arc leaves).imp_right
        fun before => before.move move
    · rw [leave_mark] at done
      split at done
      · rename_i same
        subst same
        intro arc leaves
        exact ((last arc leaves).resolve_left (List.not_mem_nil)).move move
      · exact finished other done
  | @descend node arc pending below stack fresh =>
    have frames := examined.advance move stack (by
      refine ⟨?_, fun onLine => ?_⟩
      · simp [enter_mark]
      · obtain ⟨position, onPath⟩ := lines stack onLine
        simp [fresh] at onPath)
    refine ⟨fun frame standing other leaves => ?_, fun other done => ?_⟩
    · rcases List.mem_cons.mp standing with rfl | deeper
      · exact .inl leaves
      · exact frames frame deeper other leaves
    · have earlier := enter_finished done
      exact finished other earlier
  | @close node arc pending below position stack back =>
    have visited : search.marks.get arc.target ≠ .unvisited := by simp [back]
    exact ⟨examined.advance move stack ⟨visited, fun _ => Array.mem_push_self⟩, finished⟩
  | @skip node arc pending below stack done =>
    have visited : search.marks.get arc.target ≠ .unvisited := by simp [done]
    have offLine : arc.target ∉ line arcs node := by
      intro onLine
      obtain ⟨position, onPath⟩ := lines stack onLine
      simp [done] at onPath
    exact ⟨examined.advance move stack ⟨visited, fun onLine => absurd onLine offLine⟩, finished⟩

end Examined

theorem moment_examined (arcs : Arcs n) (step : Nat) : Examined arcs (moment arcs step) := by
  induction step with
  | zero => exact .start
  | succ step ih =>
    rcases moment_succ arcs step with same | move
    · rwa [same]
    · exact ih.move move fun stack _ => (mem_line_iff stack).mp

/-- The part of the line of a node from another node on. -/
def ring (arcs : Arcs n) (source target : Fin n) : List (Fin n) :=
  (line arcs source).dropWhile (· ≠ target)

/-- A node is on the part of the line of a node below it that starts at a node above it. -/
theorem mem_ring {target : Fin n} (below : node ∈ line arcs source) (above : target ∈ line arcs node) :
    node ∈ ring arcs source target := by
  obtain ⟨rest, whole⟩ := line_initial below
  have nonempty : (line arcs node).dropWhile (· ≠ target) ≠ [] := by
    intro empty
    have apart := List.dropWhile_eq_nil_iff.mp empty target above
    simp at apart
  have last : ((line arcs node).dropWhile (· ≠ target)).getLast? = some node := by
    have both := getLast?_line arcs node
    rwa [← List.takeWhile_append_dropWhile (p := (· ≠ target)) (l := line arcs node),
      List.getLast?_append_of_ne_nil _ nonempty] at both
  rw [ring, ← whole, List.dropWhile_append, if_neg (by simpa using nonempty)]
  exact List.mem_append_left _ (List.mem_of_getLast? last)

/-- Every closing lies on the line of its source. -/
theorem moment_reports (arcs : Arcs n) (step : Nat) :
    ∃ closings : List (Closing arcs), Reports (moment arcs step) closings ∧
      ∀ closing ∈ closings, closing.arc.target ∈ line arcs closing.source ∧
        closing.ring = ring arcs closing.source closing.arc.target := by
  induction step with
  | zero => exact ⟨[], ⟨rfl, rfl⟩, by simp⟩
  | succ step ih =>
    rcases moment_succ arcs step with same | move
    · rwa [same]
    obtain ⟨closings, reports, lines⟩ := ih
    have reachable := moment_reachable arcs step
    obtain ⟨added, reports', onPath⟩ := reports.move reachable move
    refine ⟨closings ++ added, reports', fun closing member => ?_⟩
    rcases List.mem_append.mp member with old | new
    · exact lines closing old
    · obtain ⟨pending, below, position, stack, back, ring⟩ := onPath closing new
      refine ⟨(mem_line_iff stack).mpr ⟨position, back⟩, ?_⟩
      rw [ring, reachable.traced.drop_position back, path_eq_line stack]
      rfl

theorem all_reports (arcs : Arcs n) :
    ∃ closings : List (Closing arcs), Reports (all arcs) closings ∧
      ∀ closing ∈ closings, closing.arc.target ∈ line arcs closing.source ∧
        closing.ring = ring arcs closing.source closing.arc.target := by
  obtain ⟨step, same⟩ := exists_moment_eq_all arcs
  exact same ▸ moment_reports arcs step

theorem Numbered.eq (numbered : Numbered arcs) {twin : Arc n} (leaves : arc ∈ arcs.get source)
    (leaves' : twin ∈ arcs.get other) (same : arc.edge = twin.edge) :
    source = other ∧ arc = twin := by
  obtain rfl := numbered.apart leaves leaves' same
  exact ⟨rfl, List.inj_on_of_nodup_map (numbered.nodup source) leaves leaves' same⟩

/-- An arc is circular exactly if it leads back to the line of its source. -/
theorem edge_mem_circular_iff (numbered : Numbered arcs) (leaves : arc ∈ arcs.get source) :
    arc.edge ∈ (all arcs).circular ↔ arc.target ∈ line arcs source := by
  constructor
  · intro circular
    obtain ⟨closings, reports, lines⟩ := all_reports arcs
    rw [← Array.mem_toList_iff, reports.circular] at circular
    obtain ⟨closing, member, same⟩ := List.mem_map.mp circular
    obtain ⟨rfl, rfl⟩ := numbered.eq leaves closing.leaves same.symm
    exact (lines closing member).1
  · intro onLine
    obtain ⟨step, same⟩ := exists_moment_eq_all arcs
    have examined := moment_examined arcs step
    rw [same] at examined
    exact (examined.finished source (all_finished arcs source) arc leaves).reported onLine

section Precedence

variable {first second : Fin n}

/-- Of two nodes, the one that is entered first is on the line of the other or finished before. -/
theorem mem_line_or_precedes (order : entry arcs first ≤ entry arcs second) :
    first ∈ line arcs second ∨ Precedes arcs first second := by
  by_cases same : first = second
  · exact .inl (same ▸ mem_line_self arcs first)
  obtain ⟨step, atEntry, unvisited, longer, others⟩ := exists_entry arcs second
  rw [atEntry, entry_le_iff, others first same] at order
  cases mark : (moment arcs step).marks.get first with
  | unvisited => exact absurd mark order
  | onPath position =>
    have member := (moment_reachable arcs step).traced.mem_path_iff.mpr ⟨position, mark⟩
    rw [line, atEntry, longer]
    exact .inl (List.mem_append_left _ member)
  | finished => exact .inr ⟨step, mark, unvisited⟩

/-- Two nodes are on one line, or one of them is finished before the other is entered. -/
theorem line_or_precedes (arcs : Arcs n) (first second : Fin n) :
    first ∈ line arcs second ∨ second ∈ line arcs first ∨ Precedes arcs first second ∨
      Precedes arcs second first := by
  rcases Nat.le_total (entry arcs first) (entry arcs second) with order | order
  · rcases mem_line_or_precedes order with onLine | precedes
    · exact .inl onLine
    · exact .inr (.inr (.inl precedes))
  · rcases mem_line_or_precedes order with onLine | precedes
    · exact .inr (.inl onLine)
    · exact .inr (.inr (.inr precedes))

/-- Two nodes on one line are under way together. -/
theorem not_precedes_of_mem_line (member : first ∈ line arcs node)
    (member' : second ∈ line arcs node) : ¬ Precedes arcs first second := by
  have traced := (moment_reachable arcs (entry arcs node)).traced
  obtain ⟨_, here⟩ := traced.mem_path_iff.mp member
  obtain ⟨_, there⟩ := traced.mem_path_iff.mp member'
  have unfinished : (moment arcs (entry arcs node)).marks.get first ≠ .finished := by simp [here]
  have visited : (moment arcs (entry arcs node)).marks.get second ≠ .unvisited := by simp [there]
  exact not_precedes_of_moment unfinished visited

/-- A node is not finished before those to which an arc leads from further down its line. -/
theorem not_precedes_of_arc (onLine : node ∈ line arcs source) (leaves : arc ∈ arcs.get source) :
    ¬ Precedes arcs node arc.target := by
  rintro ⟨step, finished, unvisited⟩
  have offPath (later : Nat) (order : step ≤ later) : node ∉ (moment arcs later).path.toList := by
    intro member
    obtain ⟨_, onPath⟩ := (moment_reachable arcs later).traced.mem_path_iff.mp member
    nomatch onPath.symm.trans (finished_mono order finished)
  cases mark : (moment arcs step).marks.get source with
  | unvisited =>
    have order : step < entry arcs source := by
      rw [← Nat.not_le, entry_le_iff]
      exact not_not.mpr mark
    exact offPath (entry arcs source) order.le onLine
  | onPath position =>
    have found := ((moment_reachable arcs step).traced.position source position).mp mark
    rw [← path_take found] at onLine
    exact offPath step le_rfl (List.mem_of_mem_take onLine)
  | finished =>
    exact ((moment_examined arcs step).finished source mark arc leaves).visited unvisited

/-- From the line below a node, an arc leads further down, back to the line of the node, or to a
node that was finished before. -/
theorem line_of_arc (onLine : node ∈ line arcs source) (leaves : arc ∈ arcs.get source) :
    node ∈ line arcs arc.target ∨ arc.target ∈ line arcs node ∨ Precedes arcs arc.target node := by
  rcases line_or_precedes arcs node arc.target with down | up | precedes | precedes
  · exact .inl down
  · exact .inr (.inl up)
  · exact absurd precedes (not_precedes_of_arc onLine leaves)
  · exact .inr (.inr precedes)

end Precedence

end Wiring.Graph.Search
