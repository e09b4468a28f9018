import Wiring.Workload
import Wiring.Proofs.Discovery
import Wiring.Proofs.Ladder
import Wiring.Proofs.Reloading

/-! # The shape of the workloads

Each workload is known in full at every size. Its names differ because their numbers are read back
from the digits, so every class is taken, and the graph before marking is the list of its
dependencies. A chain and a fan lead onwards only and stay as they are; a ring is a ladder, in which
the edges that lead back are marked. Restricted to an inner entry a chain and a ring stay whole,
while a fan is cut down to the root and one leaf.
-/

namespace Wiring.Workload

section Names

theorem toList_numbered (stem : String) (i : Nat) :
    (numbered stem i).toList = stem.toList ++ Nat.toDigits 10 i := by
  simp only [numbered, String.toList_append, Nat.toString_eq_ofList_toDigits, String.toList_ofList]
  rfl

/-- The number of a name can be read back. -/
theorem numbered_injective (stem : String) : Function.Injective (numbered stem) := by
  intro i j same
  have letters := congrArg String.toList same
  rw [toList_numbered, toList_numbered] at letters
  have digits := congrArg (Nat.ofDigitChars 10 · 0) (List.append_cancel_left letters)
  simpa only [Nat.ofDigitChars_ten_toDigits] using digits

/-- Names of which the stems begin with different letters are different. -/
theorem numbered_ne {stem name : String} {c d : Char} (first : stem.toList.head? = some c)
    (other : name.toList.head? = some d) (apart : c ≠ d) (i : Nat) : numbered stem i ≠ name := by
  intro same
  have letters := congrArg (·.toList.head?) same
  simp only [toList_numbered, List.head?_append, first, other, Option.some_or] at letters
  exact apart (Option.some.inj letters)

private theorem isBlank_of_isDigit {c : Char} (digit : c.isDigit = true) :
    Text.isBlank c = false := by
  have range : 48 ≤ c.toNat ∧ c.toNat ≤ 57 := by
    simpa [Char.isDigit, UInt32.le_iff_toNat_le] using digit
  simp only [Text.isBlank, Text.isWhiteSpace, Bool.or_eq_false_iff, Bool.and_eq_false_iff,
    decide_eq_false_iff_not, beq_eq_false_iff_ne]
  omega

/-- A name that trimming leaves as it is, and that is not empty. -/
def Clean (name : String) : Prop := Text.trim name = name ∧ name ≠ ""

private theorem clean_of_letters {name : String}
    (letters : ∀ c ∈ name.toList, Text.isBlank c = false)
    (nonempty : name ≠ "") : Clean name := by
  refine ⟨?_, nonempty⟩
  rw [Text.trim, trimChars_eq_self, String.ofList_toList]
  · exact fun c listed => letters c (List.mem_of_mem_head? listed)
  · exact fun c listed => letters c (List.mem_of_getLast? listed)

theorem clean_numbered {stem : String} (letters : stem.toList.any Text.isBlank = false) (i : Nat) :
    Clean (numbered stem i) := by
  apply clean_of_letters
  · intro c listed
    rw [toList_numbered] at listed
    rcases List.mem_append.mp listed with inStem | digit
    · exact Bool.eq_false_iff.mpr (List.any_eq_false.mp letters c inStem)
    · exact isBlank_of_isDigit (Nat.isDigit_of_mem_toDigits (by decide) (by decide) digit)
  · intro empty
    have none := congrArg String.toList empty
    rw [toList_numbered] at none
    exact Nat.toDigits_ne_nil (List.append_eq_nil_iff.mp none).2

end Names

section Assembling

def title (resolved : Resolved.Class) : String := resolved.name.getD ""

variable {classes : List Resolved.Class} {names : Nat → String} {size : Nat}

/-- Classes with clean and different names are all taken, each with its dependencies. -/
theorem assemble_eq (titles : classes.map title = (List.range size).map names)
    (injective : Function.Injective names) (clean : ∀ i, Clean (names i)) :
    (Assembly.assemble true classes).value =
      { nodes := classes.map fun resolved => ⟨title resolved, resolved.kind⟩
        edges := classes.flatMap fun resolved => Assembly.edgesOf true (title resolved) resolved
        cycles := [] } := by
  have cleanTitle : ∀ resolved ∈ classes, Clean (title resolved) := by
    intro resolved member
    have listed := List.mem_map_of_mem (f := title) member
    rw [titles] at listed
    obtain ⟨i, _, same⟩ := List.mem_map.mp listed
    exact same ▸ clean i
  have named : Assembly.named classes = classes.map fun resolved => (title resolved, resolved) := by
    rw [Assembly.named, List.map_congr_left (g := fun resolved => (title resolved, resolved)),
      List.filter_eq_self.mpr]
    · intro item listed
      obtain ⟨resolved, member, rfl⟩ := List.mem_map.mp listed
      exact decide_eq_true (cleanTitle resolved member).2
    · intro resolved member
      exact Prod.ext (cleanTitle resolved member).1 rfl
  have standing : Assembly.standing classes =
      classes.map fun resolved => (title resolved, resolved) := by
    rw [Assembly.standing, named, firstsBy_eq_self]
    rw [List.map_map]
    change (classes.map title).Nodup
    rw [titles]
    exact List.nodup_range.map injective
  simp only [Assembly.assemble_eq_described, Assembly.described, standing, List.map_map,
    List.flatMap_map, Assembly.edgesOf_eq]
  rfl

theorem run_value (classes : List Resolved.Class) (entries : List String) :
    (run classes entries).value =
      (Assembly.assemble true classes).value.markCycles.restrict entries .both := rfl

end Assembling

section Chain

/-- The graph of a chain: each service leads to the next. -/
def chainGraph (length : Nat) : Graph where
  nodes := (List.range length).map fun i => ⟨numbered "S" i, .service⟩
  edges := (List.range (length - 1)).map fun i =>
    ⟨numbered "S" i, numbered "S" (i + 1), none, none⟩
  cycles := []

variable {length k : Nat}

private theorem flatMap_range_next {α : Type} (next : Nat → α) (length : Nat) :
    ((List.range length).flatMap fun i => if i + 1 < length then [next i] else []) =
      (List.range (length - 1)).map next := by
  cases length with
  | zero => rfl
  | succ length =>
    have whole : ((List.range length).flatMap fun i =>
        if i + 1 < length + 1 then [next i] else []) = (List.range length).map next := by
      rw [List.map_eq_flatMap]
      refine List.flatMap_congr fun i listed => ?_
      have := List.mem_range.mp listed
      rw [if_pos (by omega)]
    rw [List.range_succ, List.flatMap_append, whole]
    simp

theorem assemble_chain (length : Nat) :
    (Assembly.assemble true (chain length)).value = chainGraph length := by
  have titles : (chain length).map title = (List.range length).map (numbered "S") := by
    rw [chain, List.map_map]
    rfl
  have edges : ((chain length).flatMap fun resolved =>
      Assembly.edgesOf true (title resolved) resolved) = (chainGraph length).edges := by
    rw [chainGraph, ← flatMap_range_next, chain, List.flatMap_map]
    refine List.flatMap_congr fun i _ => ?_
    split
    · rfl
    · rfl
  rw [assemble_eq titles (numbered_injective "S") (clean_numbered rfl), edges, chain,
    List.map_map]
  rfl

private theorem chainGraph_rising (length : Nat) : (chainGraph length).Rising (numbered "S") := by
  intro edge listed
  obtain ⟨i, _, rfl⟩ := List.mem_map.mp listed
  exact ⟨i, i + 1, Nat.lt_succ_self i, rfl, rfl⟩

private theorem chainGraph_inLine (length : Nat) :
    (chainGraph length).InLine (numbered "S") length where
  ids := by
    rw [Graph.ids, chainGraph, List.map_map]
    rfl
  linked i inside := by
    have known (j : Nat) (before : j < length) : numbered "S" j ∈ (chainGraph length).ids :=
      List.mem_map.mpr ⟨_, List.mem_map_of_mem (List.mem_range.mpr before), rfl⟩
    refine ⟨known i (by omega), known (i + 1) inside, _, List.mem_map_of_mem (a := i) ?_, rfl, rfl⟩
    rw [List.mem_range]
    omega
  near edge listed := by
    obtain ⟨i, inside, rfl⟩ := List.mem_map.mp listed
    rw [List.mem_range] at inside
    exact ⟨i, by omega, i + 1, Nat.le_refl _, rfl, rfl⟩

theorem run_chain (length : Nat) : (run (chain length) []).value = chainGraph length := by
  have acyclic := (chainGraph_rising length).acyclic (numbered_injective "S")
  rw [run_value, assemble_chain, acyclic.markCycles_eq]
  rfl

private theorem run_chain_entry (inside : k < length) :
    (run (chain length) [numbered "S" k]).value = (run (chain length) []).value := by
  rw [run_value, run_value, assemble_chain]
  exact (chainGraph_inLine length).restrict_markCycles inside

end Chain

section FanOut

/-- The graph of a fan: a component leads to each of the services. -/
def fanGraph (width : Nat) : Graph where
  nodes := ⟨"Root", .component⟩ ::
    (List.range width).map fun i => ⟨numbered "Leaf" i, .service⟩
  edges := (List.range width).map fun i => ⟨"Root", numbered "Leaf" i, none, none⟩
  cycles := []

/-- The names in a fan, the root first. -/
def fanName : Nat → String
  | 0 => "Root"
  | i + 1 => numbered "Leaf" i

variable {width k : Nat}

theorem leaf_ne_root (i : Nat) : numbered "Leaf" i ≠ "Root" :=
  numbered_ne rfl rfl (by decide : 'L' ≠ 'R') i

private theorem fanName_injective : Function.Injective fanName := by
  rintro (_ | i) (_ | j) same
  · rfl
  · exact absurd same.symm (leaf_ne_root j)
  · exact absurd same (leaf_ne_root i)
  · rw [numbered_injective "Leaf" same]

private theorem clean_fanName (i : Nat) : Clean (fanName i) := by
  cases i with
  | zero => exact ⟨by decide, by decide⟩
  | succ i => exact clean_numbered rfl i

theorem assemble_fanOut (width : Nat) :
    (Assembly.assemble true (fanOut width)).value = fanGraph width := by
  have titles : (fanOut width).map title = (List.range (width + 1)).map fanName := by
    rw [fanOut, List.map_cons, List.map_map, List.range_succ_eq_map, List.map_cons, List.map_map]
    rfl
  have leaves : ((List.range width).map fun i => named (numbered "Leaf" i) .service []).flatMap
      (fun resolved => Assembly.edgesOf true (title resolved) resolved) = [] := by
    rw [List.flatMap_map]
    exact List.flatMap_eq_nil_iff.mpr fun i _ => rfl
  rw [assemble_eq titles fanName_injective clean_fanName, fanOut, List.map_cons, List.map_map,
    List.flatMap_cons, leaves, List.append_nil, Assembly.edgesOf, named, List.map_map]
  rfl

private theorem fanGraph_ids (width : Nat) :
    (fanGraph width).ids = "Root" :: (List.range width).map (numbered "Leaf") := by
  rw [Graph.ids, fanGraph, List.map_cons, List.map_map]
  rfl

private theorem fanGraph_rising (width : Nat) : (fanGraph width).Rising fanName := by
  intro edge listed
  obtain ⟨i, _, rfl⟩ := List.mem_map.mp listed
  exact ⟨0, i + 1, Nat.zero_lt_succ i, rfl, rfl⟩

theorem fanGraph_follows_iff {source target : String} :
    (fanGraph width).Follows .forward source target ↔
      source = "Root" ∧ ∃ i < width, target = numbered "Leaf" i := by
  constructor
  · rintro ⟨edge, listed, rfl, rfl⟩
    obtain ⟨i, inside, rfl⟩ := List.mem_map.mp listed
    exact ⟨rfl, i, List.mem_range.mp inside, rfl⟩
  · rintro ⟨rfl, i, inside, rfl⟩
    exact ⟨_, List.mem_map_of_mem (List.mem_range.mpr inside), rfl, rfl⟩

/-- Of a row of items one is left if the test tells its place. -/
theorem filter_map_range {α : Type} {item : Nat → α} {test : α → Bool} (inside : k < width)
    (tells : ∀ i, test (item i) = decide (i = k)) :
    ((List.range width).map item).filter test = [item k] := by
  have only : (List.range width).filter (fun i => decide (i = k)) = [k] := by
    rw [List.filter_eq, List.count_eq_one_of_mem List.nodup_range (List.mem_range.mpr inside)]
    rfl
  have same : test ∘ item = fun i => decide (i = k) := funext tells
  rw [List.filter_map, same, only]
  rfl

section Leaf

variable (inside : k < width)
include inside

theorem leaf_mem_ids : numbered "Leaf" k ∈ (fanGraph width).ids := by
  rw [fanGraph_ids]
  exact List.mem_cons_of_mem _ (List.mem_map_of_mem (List.mem_range.mpr inside))

/-- A leaf leads nowhere. -/
theorem leaf_accessible_forward_iff {id : String} :
    (fanGraph width).Accessible .forward [numbered "Leaf" k] id ↔ id = numbered "Leaf" k := by
  constructor
  · rintro ⟨entry, isEntry, _, path⟩
    obtain rfl := List.mem_singleton.mp isEntry
    rcases path.cases_head with same | ⟨next, step, _⟩
    · exact same.symm
    · exact absurd (fanGraph_follows_iff.mp step).1 (leaf_ne_root k)
  · rintro rfl
    exact ⟨_, List.mem_singleton_self _, leaf_mem_ids inside, .refl⟩

/-- Only the root leads to a leaf, and nothing to the root. -/
theorem leaf_accessible_backward_iff {id : String} :
    (fanGraph width).Accessible .backward [numbered "Leaf" k] id ↔
      id = numbered "Leaf" k ∨ id = "Root" := by
  constructor
  · rintro ⟨entry, isEntry, _, path⟩
    obtain rfl := List.mem_singleton.mp isEntry
    rcases path.cases_head with same | ⟨next, step, rest⟩
    · exact .inl same.symm
    · obtain ⟨rfl, _⟩ := fanGraph_follows_iff.mp (Graph.follows_backward_iff.mp step)
      rcases rest.cases_head with same | ⟨before, back, _⟩
      · exact .inr same.symm
      · obtain ⟨_, i, _, root⟩ := fanGraph_follows_iff.mp (Graph.follows_backward_iff.mp back)
        exact absurd root.symm (leaf_ne_root i)
  · have up : (fanGraph width).Follows .backward (numbered "Leaf" k) "Root" :=
      Graph.follows_backward_iff.mpr (fanGraph_follows_iff.mpr ⟨rfl, k, inside, rfl⟩)
    rintro (rfl | rfl)
    · exact ⟨_, List.mem_singleton_self _, leaf_mem_ids inside, .refl⟩
    · exact ⟨_, List.mem_singleton_self _, leaf_mem_ids inside, .single up⟩

theorem leaf_meets_iff {point : Sense → String} :
    (fanGraph width).meets [numbered "Leaf" k] .both point = true ↔
      point .forward = numbered "Leaf" k ∨ point .backward = numbered "Leaf" k ∨
        point .backward = "Root" := by
  rw [Graph.meets_iff]
  simp only [Direction.senses, List.mem_cons, List.not_mem_nil, or_false, exists_eq_or_imp,
    exists_eq_left, leaf_accessible_forward_iff inside, leaf_accessible_backward_iff inside]

/-- The root and one leaf are left of a fan. -/
theorem restrict_fanGraph : (fanGraph width).restrict [numbered "Leaf" k] .both =
    { nodes := [⟨"Root", .component⟩, ⟨numbered "Leaf" k, .service⟩]
      edges := [⟨"Root", numbered "Leaf" k, none, none⟩]
      cycles := [] } := by
  have chosen (i : Nat) : numbered "Leaf" i = numbered "Leaf" k ↔ i = k :=
    (numbered_injective "Leaf").eq_iff
  have nodes : ((fanGraph width).nodes.filter fun node =>
      (fanGraph width).meets [numbered "Leaf" k] .both fun _ => node.id) =
        [⟨"Root", .component⟩, ⟨numbered "Leaf" k, .service⟩] := by
    refine (List.filter_cons_of_pos ?_).trans (congrArg _ (filter_map_range inside fun i => ?_))
    · exact (leaf_meets_iff inside).mpr (.inr (.inr rfl))
    · rw [Bool.eq_iff_iff, leaf_meets_iff inside]
      simp [chosen, leaf_ne_root]
  have edges : ((fanGraph width).edges.filter fun edge =>
      (fanGraph width).meets [numbered "Leaf" k] .both (Sense.tail · edge)) =
        [⟨"Root", numbered "Leaf" k, none, none⟩] := by
    refine filter_map_range inside fun i => ?_
    rw [Bool.eq_iff_iff, leaf_meets_iff inside]
    simp [Sense.tail, chosen, leaf_ne_root, (leaf_ne_root k).symm]
  rw [Graph.restrict_eq_within (List.cons_ne_nil _ _), nodes, edges]
  rfl

end Leaf

private theorem fanGraph_markCycles (width : Nat) : (fanGraph width).markCycles = fanGraph width :=
  ((fanGraph_rising width).acyclic fanName_injective).markCycles_eq

theorem run_fanOut (width : Nat) : (run (fanOut width) []).value = fanGraph width := by
  rw [run_value, assemble_fanOut, fanGraph_markCycles]
  rfl

private theorem run_fanOut_entry (inside : k < width) :
    (run (fanOut width) [numbered "Leaf" k]).value =
      { nodes := [⟨"Root", .component⟩, ⟨numbered "Leaf" k, .service⟩]
        edges := [⟨"Root", numbered "Leaf" k, none, none⟩]
        cycles := [] } := by
  rw [run_value, assemble_fanOut, fanGraph_markCycles, restrict_fanGraph inside]

end FanOut

section Ring

def ringNodes (count : Nat) : List Node :=
  (List.range count).flatMap fun i => [⟨numbered "A" i, .service⟩, ⟨numbered "B" i, .service⟩]

/-- The edges of a pair in a ring, where the one that leads back carries a mark. The last pair leads
nowhere else. -/
def rung (mark : Option Bool) (count i : Nat) : List Edge :=
  ⟨numbered "A" i, numbered "B" i, none, none⟩ :: ⟨numbered "B" i, numbered "A" i, none, mark⟩ ::
    if i + 1 < count then [⟨numbered "B" i, numbered "A" (i + 1), none, none⟩] else []

def ringEdges (mark : Option Bool) (count : Nat) : List Edge :=
  (List.range count).flatMap (rung mark count)

variable {count k : Nat}

theorem a_ne_b (i j : Nat) : numbered "A" i ≠ numbered "B" j := by
  have head : (numbered "B" j).toList.head? = some 'B' := by
    rw [toList_numbered]
    rfl
  exact numbered_ne rfl head (by decide : 'A' ≠ 'B') i

theorem assemble_ring (count : Nat) :
    (Assembly.assemble true (ring count)).value = ⟨ringNodes count, ringEdges none count, []⟩ := by
  have titles : (ring count).map title =
      (List.range (2 * count)).map (Graph.alternate (numbered "A") (numbered "B")) := by
    rw [← Graph.flatMap_pair_eq, ring, List.map_flatMap]
    rfl
  have clean (i : Nat) : Clean (Graph.alternate (numbered "A") (numbered "B") i) := by
    unfold Graph.alternate
    split
    · exact clean_numbered rfl _
    · exact clean_numbered rfl _
  have edges : ((ring count).flatMap fun resolved =>
      Assembly.edgesOf true (title resolved) resolved) = ringEdges none count := by
    rw [ring, List.flatMap_assoc]
    refine List.flatMap_congr fun i _ => ?_
    rw [rung]
    split
    · rfl
    · rfl
  rw [assemble_eq titles (Graph.alternate_injective (numbered_injective "A")
    (numbered_injective "B") a_ne_b) clean, edges, ring, List.map_flatMap]
  rfl

theorem ring_laddered (count : Nat) :
    (Graph.mk (ringNodes count) (ringEdges none count) []).Laddered (numbered "A") (numbered "B")
      count where
  first_injective := numbered_injective "A"
  second_injective := numbered_injective "B"
  apart := a_ne_b
  ids := by
    rw [Graph.ids, ringNodes, List.map_flatMap]
    rfl
  ends := by
    rw [ringEdges, List.map_flatMap]
    refine List.flatMap_congr fun i _ => ?_
    rw [rung]
    split
    · rfl
    · rfl

/-- Marking what leads back in a pair leaves its other edges as they are. -/
theorem map_markBack_rung {i : Nat} (inside : i < count) :
    (rung none count i).map (Graph.markBack (numbered "A") (numbered "B") count) =
      rung (some true) count i := by
  have up : ¬ ∃ j < count, numbered "A" i = numbered "B" j ∧ numbered "B" i = numbered "A" j := by
    rintro ⟨j, _, same, _⟩
    exact a_ne_b i j same
  have back : ∃ j < count, numbered "B" i = numbered "B" j ∧ numbered "A" i = numbered "A" j :=
    ⟨i, inside, rfl, rfl⟩
  have onwards : ¬ ∃ j < count,
      numbered "B" i = numbered "B" j ∧ numbered "A" (i + 1) = numbered "A" j := by
    rintro ⟨j, _, same, same'⟩
    have := numbered_injective "B" same
    have := numbered_injective "A" same'
    omega
  rw [rung, rung, List.map_cons, List.map_cons, Graph.markBack, if_neg up, Graph.markBack,
    if_pos back]
  split
  · rw [List.map_singleton, Graph.markBack, if_neg onwards]
  · rfl

theorem run_ring (count : Nat) : (run (ring count) []).value =
    { nodes := ringNodes count
      edges := ringEdges (some true) count
      cycles := (List.range count).map fun i => [numbered "A" i, numbered "B" i] } := by
  have edges : (ringEdges none count).map (Graph.markBack (numbered "A") (numbered "B") count) =
      ringEdges (some true) count := by
    rw [ringEdges, List.map_flatMap]
    exact List.flatMap_congr fun i listed => map_markBack_rung (List.mem_range.mp listed)
  rw [run_value, assemble_ring, (ring_laddered count).markCycles_eq, edges]
  rfl

private theorem length_rungs {mark : Option Bool} {m : Nat} (before : m < count) :
    ((List.range m).flatMap (rung mark count)).length = 3 * m := by
  induction m with
  | zero => rfl
  | succ m ih =>
    rw [List.range_succ, List.flatMap_append, List.length_append, ih (by omega),
      List.flatMap_singleton, rung, if_pos before]
    simp only [List.length_cons, List.length_nil]
    omega

/-- All pairs have three edges but the last, which has two. -/
theorem length_ringEdges (mark : Option Bool) (count : Nat) :
    (ringEdges mark count).length = 3 * count - 1 := by
  cases count with
  | zero => rfl
  | succ count =>
    rw [ringEdges, List.range_succ, List.flatMap_append, List.length_append,
      length_rungs (Nat.lt_succ_self count), List.flatMap_singleton, rung,
      if_neg (Nat.lt_irrefl (count + 1))]
    simp only [List.length_cons, List.length_nil]
    omega

/-- The marked edges are those that lead back. -/
theorem filter_ringEdges (count : Nat) :
    (ringEdges (some true) count).filter (fun edge => edge.circular = some true) =
      (List.range count).map fun i => ⟨numbered "B" i, numbered "A" i, none, some true⟩ := by
  rw [ringEdges, List.filter_flatMap, List.map_eq_flatMap]
  refine List.flatMap_congr fun i _ => ?_
  rw [rung]
  split
  · rfl
  · rfl

private theorem run_ring_entries (inside : k < count) :
    (run (ring count) [numbered "A" k]).value = (run (ring count) []).value ∧
      (run (ring count) [numbered "B" k]).value = (run (ring count) []).value := by
  have line := (ring_laddered count).inLine
  simp only [run_value, assemble_ring]
  constructor
  · rw [← Graph.alternate_even (numbered "A") (numbered "B") k]
    apply line.restrict_markCycles
    omega
  · rw [← Graph.alternate_odd (numbered "A") (numbered "B") k]
    apply line.restrict_markCycles
    omega

end Ring

/-- The workloads have their shape at every size. A chain has its services in order, each with an
edge to the next; a fan has an edge from the root to each leaf; neither has a cycle, nor a circular
edge. A ring has the cycles of its pairs, in order, and of its edges exactly those are circular that
lead back within a pair. From any service of a chain or of a ring the same graph is reached; from a
leaf of a fan, the leaf, the root and the edge between them. -/
theorem run_shapes (n : Nat) :
    ((run (chain n) []).value.ids = (List.range n).map (numbered "S") ∧
      (run (chain n) []).value.edges = (List.range (n - 1)).map (fun i =>
        ⟨numbered "S" i, numbered "S" (i + 1), none, none⟩) ∧
      (run (chain n) []).value.cycles = [] ∧
      ∀ k < n, (run (chain n) [numbered "S" k]).value = (run (chain n) []).value) ∧
    ((run (fanOut n) []).value.ids = "Root" :: (List.range n).map (numbered "Leaf") ∧
      (run (fanOut n) []).value.edges = (List.range n).map (fun i =>
        ⟨"Root", numbered "Leaf" i, none, none⟩) ∧
      (run (fanOut n) []).value.cycles = [] ∧
      ∀ k < n, (run (fanOut n) [numbered "Leaf" k]).value =
        { nodes := [⟨"Root", .component⟩, ⟨numbered "Leaf" k, .service⟩]
          edges := [⟨"Root", numbered "Leaf" k, none, none⟩]
          cycles := [] }) ∧
    ((run (ring n) []).value.ids =
        (List.range n).flatMap (fun i => [numbered "A" i, numbered "B" i]) ∧
      (run (ring n) []).value.cycles =
        (List.range n).map (fun i => [numbered "A" i, numbered "B" i]) ∧
      (run (ring n) []).value.edges = (List.range n).flatMap (fun i =>
        ⟨numbered "A" i, numbered "B" i, none, none⟩ ::
        ⟨numbered "B" i, numbered "A" i, none, some true⟩ ::
        if i + 1 < n then [⟨numbered "B" i, numbered "A" (i + 1), none, none⟩] else []) ∧
      (run (ring n) []).value.edges.length = 3 * n - 1 ∧
      (run (ring n) []).value.edges.filter (fun edge => edge.circular = some true) =
        (List.range n).map (fun i => ⟨numbered "B" i, numbered "A" i, none, some true⟩) ∧
      ∀ k < n, (run (ring n) [numbered "A" k]).value = (run (ring n) []).value ∧
        (run (ring n) [numbered "B" k]).value = (run (ring n) []).value) := by
  refine ⟨⟨?_, ?_, ?_, fun k => run_chain_entry⟩, ⟨?_, ?_, ?_, fun k => run_fanOut_entry⟩,
    ⟨?_, ?_, ?_, ?_, ?_, fun k => run_ring_entries⟩⟩
  · rw [run_chain]
    exact (chainGraph_inLine n).ids
  · rw [run_chain]
    rfl
  · rw [run_chain]
    rfl
  · rw [run_fanOut]
    exact fanGraph_ids n
  · rw [run_fanOut]
    rfl
  · rw [run_fanOut]
    rfl
  · rw [run_ring]
    exact (ring_laddered n).ids
  · rw [run_ring]
  · rw [run_ring]
    rfl
  · rw [run_ring]
    exact length_ringEdges (some true) n
  · rw [run_ring]
    exact filter_ringEdges n

theorem run_shapes_three :
    1 < 3 ∧ (run (chain 3) ["S1"]).value = (run (chain 3) []).value ∧
      (run (fanOut 3) ["Leaf1"]).value.ids = ["Root", "Leaf1"] ∧
      (run (ring 3) ["B1"]).value.cycles = [["A0", "B0"], ["A1", "B1"], ["A2", "B2"]] := by
  obtain ⟨⟨_, _, _, chained⟩, ⟨_, _, _, fanned⟩, ⟨_, cycles, _, _, _, ringed⟩⟩ := run_shapes 3
  refine ⟨by decide, chained 1 (by decide), ?_, ?_⟩
  · exact congrArg Graph.ids (fanned 1 (by decide))
  · exact (congrArg Graph.cycles (ringed 1 (by decide)).2).trans cycles

end Wiring.Workload
