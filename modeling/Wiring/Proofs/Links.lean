import Wiring.Proofs.Search.Closing

/-! # The arcs of a graph

The search works on numbered nodes and their arcs. An arc stands for an edge between known nodes,
and says where in the list of edges it is; a node id stands for the last node that has it.
-/

namespace Wiring.Graph

theorem get_of_lastIndex? {id : String} {ids : List String} {index : Fin ids.length}
    (found : lastIndex? id ids = some index) : ids.get index = id := by
  induction ids with
  | nil => exact index.elim0
  | cons head rest ih =>
    simp only [lastIndex?] at found
    split at found
    · rename_i later here
      obtain rfl := Option.some.inj found
      exact ih here
    · split at found
      · rename_i same
        obtain rfl := Option.some.inj found
        exact same
      · nomatch found

/-- No other id stands for the node that an id stands for. -/
theorem lastIndex?_eq_iff {id : String} {ids : List String} {index : Fin ids.length}
    (found : lastIndex? id ids = some index) (other : String) :
    lastIndex? other ids = some index ↔ other = id := by
  constructor
  · exact fun found' => (get_of_lastIndex? found').symm.trans (get_of_lastIndex? found)
  · rintro rfl
    exact found

theorem exists_lastIndex? {id : String} {ids : List String} (listed : id ∈ ids) :
    ∃ index, lastIndex? id ids = some index := by
  induction ids with
  | nil => nomatch listed
  | cons head rest ih =>
    cases later : lastIndex? id rest with
    | some index => exact ⟨index.succ, by simp [lastIndex?, later]⟩
    | none =>
      rcases List.mem_cons.mp listed with rfl | listed
      · exact ⟨⟨0, Nat.zero_lt_succ _⟩, by simp [lastIndex?, later]⟩
      · obtain ⟨index, found⟩ := ih listed
        nomatch later.symm.trans found

/-- The edge that an arc of a node stands for. -/
structure Represents (ids : List String) (edges : List Edge) (source : Fin ids.length)
    (arc : Arc ids.length) (edge : Edge) : Prop where
  found : edges[arc.edge]? = some edge
  source : lastIndex? edge.source ids = some source
  target : lastIndex? edge.target ids = some arc.target

private theorem mem_links_iff {ids : List String} {edges : List Edge} {source : Fin ids.length}
    {arc : Arc ids.length} :
    (source, arc) ∈ links ids edges ↔ ∃ edge, Represents ids edges source arc edge := by
  simp only [links, List.mem_filterMap, Prod.exists, List.mem_zipIdx_iff_getElem?]
  constructor
  · rintro ⟨edge, place, found, linked⟩
    simp only [Option.bind_eq_bind, Option.bind_eq_some_iff, Option.pure_def, Option.some.injEq,
      Prod.mk.injEq] at linked
    obtain ⟨_, atSource, _, atTarget, rfl, rfl⟩ := linked
    exact ⟨edge, found, atSource, atTarget⟩
  · rintro ⟨edge, found, atSource, atTarget⟩
    exact ⟨edge, arc.edge, found, by simp [atSource, atTarget]⟩

/-- Each edge gives rise to one link at most. -/
theorem links_nodup (ids : List String) (edges : List Edge) :
    ((links ids edges).map (·.2.edge)).Nodup := by
  have places : edges.zipIdx.Pairwise fun first second => first.2 ≠ second.2 := by
    rw [← List.pairwise_map, List.zipIdx_map_snd]
    exact List.nodup_range'
  rw [List.Nodup, List.pairwise_map, links, List.pairwise_filterMap]
  refine places.imp ?_
  rintro ⟨_, place⟩ ⟨_, other⟩ apart _ linked _ linked'
  simp only [Option.bind_eq_bind, Option.bind_eq_some_iff, Option.pure_def,
    Option.some.injEq] at linked linked'
  obtain ⟨_, _, _, _, rfl⟩ := linked
  obtain ⟨_, _, _, _, rfl⟩ := linked'
  exact apart

section Arcs

variable {n : Nat} {links : List (Fin n × Arc n)} {source : Fin n} {arc : Arc n}

theorem arcsOf_get (links : List (Fin n × Arc n)) (node : Fin n) :
    (arcsOf links).get node = links.filterMap fun link => if link.1 = node then some link.2 else none := by
  change (arcsOf links)[node.val] = _
  rw [arcsOf, Vector.getElem_ofFn]

theorem mem_arcsOf_iff : arc ∈ (arcsOf links).get source ↔ (source, arc) ∈ links := by
  rw [arcsOf_get]
  simp

private theorem arcsOf_numbered (nodup : (links.map (·.2.edge)).Nodup) :
    Search.Numbered (arcsOf links) where
  apart member member' same := by
    have equal := List.inj_on_of_nodup_map nodup (mem_arcsOf_iff.mp member)
      (mem_arcsOf_iff.mp member') same
    exact congrArg Prod.fst equal
  nodup node := by
    rw [List.Nodup, List.pairwise_map] at nodup ⊢
    rw [arcsOf_get, List.pairwise_filterMap]
    refine nodup.imp ?_
    intro first second apart arc here twin there
    split at here
    · split at there
      · cases here
        cases there
        exact apart
      · nomatch there
    · nomatch here

end Arcs

/-- The arcs of a graph stand for its edges between known nodes. -/
theorem mem_arcs_iff {ids : List String} {edges : List Edge} {source : Fin ids.length}
    {arc : Arc ids.length} :
    arc ∈ (arcsOf (links ids edges)).get source ↔ ∃ edge, Represents ids edges source arc edge :=
  mem_arcsOf_iff.trans mem_links_iff

theorem arcs_numbered (ids : List String) (edges : List Edge) :
    Search.Numbered (arcsOf (links ids edges)) :=
  arcsOf_numbered (links_nodup ids edges)

namespace Represents

variable {ids : List String} {edges : List Edge} {source : Fin ids.length} {arc : Arc ids.length}
  {edge : Edge}

theorem get_source (represents : Represents ids edges source arc edge) :
    ids.get source = edge.source := get_of_lastIndex? represents.source

theorem get_target (represents : Represents ids edges source arc edge) :
    ids.get arc.target = edge.target := get_of_lastIndex? represents.target

/-- An arc is a loop exactly if its edge is one. -/
theorem isLoop_iff (represents : Represents ids edges source arc edge) :
    arc.target = source ↔ edge.source = edge.target := by
  constructor
  · intro same
    rw [← represents.get_source, ← represents.get_target, same]
  · intro same
    have target := represents.target
    rw [← same, represents.source] at target
    exact (Option.some.inj target).symm

end Represents

end Wiring.Graph
