import Wiring.Pipeline
import Wiring.Proofs.Decoding
import Wiring.Proofs.Json.Spelling

/-! # Rendering loses nothing

A graph is rendered as a document in which what is absent is left out. Reading the document gives
absent parts back where they were left out, so that the graph is recovered from its text alone.
-/

namespace Wiring

open Schema
open Json (Value Plain)

theorem NodeKind.decode_name (kind : NodeKind) : decode (.str kind.name) = .ok kind := by
  cases kind <;> rfl

private theorem Flags.decode_encodeAsserted (model : String) (flags : Flags) :
    decode model flags.encodeAsserted = .ok flags := by
  rcases flags with ⟨_ | optional, _ | self, _ | skipSelf, _ | host⟩ <;> rfl

private theorem Flags.plain_encodeAsserted (flags : Flags) : Plain flags.encodeAsserted := by
  have distinct : ((flags.asserted.map fun field => (field.1, Value.bool field.2)).map
      (·.1)).Nodup := by
    rcases flags with ⟨_ | optional, _ | self, _ | skipSelf, _ | host⟩ <;>
      simp [asserted, fields]
  refine .obj distinct fun member listed => ?_
  obtain ⟨field, _, rfl⟩ := List.mem_map.mp listed
  exact .bool field.2

namespace Node

variable {node : Node}

theorem decode_encode (named : node.id ≠ "") : decode node.encode = .ok node :=
  record_gives "Node"
    (((Fields.required_gives rfl (Decoder.nonEmptyText_str named)).map Node.mk).seq
      (Fields.withDefault_gives rfl node.kind.decode_name))
    (by simp)

private theorem plain_encode (node : Node) : Plain node.encode := by
  refine .obj (by simp) fun member listed => ?_
  simp only [List.mem_cons, List.not_mem_nil, or_false] at listed
  rcases listed with rfl | rfl <;> exact .str _

private theorem id_ne_empty (valid : Valid decode node) : node.id ≠ "" := by
  obtain ⟨_, kind, partly, _, rfl⟩ := Fields.valid_of_seq (valid_of_record valid)
  obtain ⟨id, required, rfl⟩ := Fields.valid_of_map partly
  exact Decoder.ne_empty_of_valid (Fields.valid_of_required required)

end Node

namespace Edge

/-- The members of an edge, those for absent parts left out. -/
def present (edge : Edge) : List (String × Value) :=
  [("from", .str edge.source), ("to", .str edge.target)] ++
    (edge.flags.map fun flags => ("flags", flags.encodeAsserted)).toList ++
    (edge.circular.map fun mark => ("isCircular", .bool mark)).toList

/-- An edge is read back, with what was left out absent. -/
theorem decode_encodePresent (edge : Edge) : decode edge.encodePresent = .ok edge := by
  have flags : Json.lookup? edge.present "flags" = edge.flags.map Flags.encodeAsserted := by
    rcases edge with ⟨_, _, _ | _, _ | _⟩ <;> rfl
  have mark : Json.lookup? edge.present "isCircular" = edge.circular.map .bool := by
    rcases edge with ⟨_, _, _ | _, _ | _⟩ <;> rfl
  have noOther : ∀ other ∈ ["is_circular"], Json.lookup? edge.present other = none := by
    rcases edge with ⟨_, _, _ | _, _ | _⟩ <;> exact List.forall_mem_singleton.mpr rfl
  refine record_gives "Edge"
    (((((Fields.required_gives rfl (Decoder.text_str edge.source)).map Edge.mk).seq
      (Fields.required_gives rfl (Decoder.text_str edge.target))).seq
      (Fields.nullable_gives flags (List.forall_mem_nil _) (fun _ => nofun)
        fun flags _ => flags.decode_encodeAsserted "EdgeFlags")).seq
      (Fields.nullable_gives mark noOther (fun _ => nofun) fun mark _ => Decoder.bool_bool mark)) ?_
  rcases edge with ⟨_, _, _ | _, _ | _⟩ <;> simp

theorem plain_encodePresent (edge : Edge) : Plain edge.encodePresent := by
  have distinct : (edge.present.map (·.1)).Nodup := by
    rcases edge with ⟨_, _, _ | _, _ | _⟩ <;> simp [present]
  refine .obj distinct fun member listed => ?_
  rcases List.mem_append.mp listed with listed | listed
  · rcases List.mem_append.mp listed with listed | listed
    · simp only [List.mem_cons, List.not_mem_nil, or_false] at listed
      rcases listed with rfl | rfl <;> exact .str _
    · obtain ⟨flags, _, rfl⟩ := Option.map_eq_some_iff.mp (Option.mem_toList.mp listed)
      exact flags.plain_encodeAsserted
  · obtain ⟨mark, _, rfl⟩ := Option.map_eq_some_iff.mp (Option.mem_toList.mp listed)
    exact .bool mark

end Edge

namespace Graph

variable {graph first second : Graph}

theorem decode_encodePresent (named : ∀ node ∈ graph.nodes, node.id ≠ "") :
    decode graph.encodePresent = .ok graph :=
  record_gives "Graph"
    ((((Fields.withDefault_gives rfl
      (Decoder.list_map_self fun node listed => Node.decode_encode (named node listed))).map
        Graph.mk).seq
      (Fields.withDefault_gives rfl
        (Decoder.list_map_self fun edge _ => edge.decode_encodePresent))).seq
      (Fields.withDefault_gives rfl
        (Decoder.list_map_self fun cycle _ =>
          Decoder.list_map_self fun id _ => Decoder.text_str id)))
    (by simp)

private theorem named_of_valid (valid : Valid decode graph) :
    ∀ node ∈ graph.nodes, node.id ≠ "" := by
  obtain ⟨_, cycles, partly, _, rfl⟩ := Fields.valid_of_seq (valid_of_record valid)
  obtain ⟨_, edges, first, _, rfl⟩ := Fields.valid_of_seq partly
  obtain ⟨nodes, found, rfl⟩ := Fields.valid_of_map first
  rcases Fields.valid_of_withDefault found with rfl | found
  · exact List.forall_mem_nil _
  · exact fun node listed => Node.id_ne_empty (Decoder.valid_of_list found node listed)

/-- The one thing that a valid graph needs is names for its nodes. -/
theorem valid_iff : Valid decode graph ↔ ∀ node ∈ graph.nodes, node.id ≠ "" :=
  ⟨named_of_valid, fun named => ⟨_, decode_encodePresent named⟩⟩

theorem plain_encodePresent (graph : Graph) : Plain graph.encodePresent := by
  refine .obj (by simp) fun member listed => ?_
  simp only [List.mem_cons, List.not_mem_nil, or_false] at listed
  rcases listed with rfl | rfl | rfl
  · exact .map fun node _ => node.plain_encode
  · exact .map fun edge _ => edge.plain_encodePresent
  · exact .map fun cycle _ => .map fun id _ => .str id

end Graph

namespace Pipeline

/-- The text of a valid graph is read back as the graph, so no two of them have one text. -/
theorem renderJson_lossless :
    (∀ graph, Valid Graph.decode graph → ∃ value,
      Json.parse (renderJson graph).value = .ok value ∧ Graph.decode value = .ok graph) ∧
    ∀ first second, Valid Graph.decode first → Valid Graph.decode second →
      (renderJson first).value = (renderJson second).value → first = second := by
  have readsBack (graph : Graph) (valid : Valid Graph.decode graph) : ∃ value,
      Json.parse (renderJson graph).value = .ok value ∧ Graph.decode value = .ok graph :=
    ⟨graph.encodePresent, Json.parse_pretty graph.plain_encodePresent,
      Graph.decode_encodePresent (Graph.named_of_valid valid)⟩
  refine ⟨readsBack, fun first second validFirst validSecond same => ?_⟩
  obtain ⟨value, parsed, decoded⟩ := readsBack first validFirst
  obtain ⟨value', parsed', decoded'⟩ := readsBack second validSecond
  rw [← same, parsed] at parsed'
  cases parsed'
  rw [decoded] at decoded'
  exact Except.ok.inj decoded'

/-- An edge with empty ends, whose flags and mark vary, beside a node with an awkward name. -/
def awkward (flags : Option Flags) (mark : Option Bool) : Graph where
  nodes := [⟨"\"\\/\n\x01é😀", .unknown⟩]
  edges := [⟨"", "", flags, mark⟩]
  cycles := [[], [""]]

/-- Flags of which none is asserted are not lost, and a false mark is not taken for an absent
one. -/
theorem renderJson_lossless_awkward :
    (∃ value, Json.parse (renderJson (awkward (some .unset) none)).value = .ok value ∧
      Graph.decode value = .ok (awkward (some .unset) none)) ∧
    (renderJson (awkward none none)).value ≠ (renderJson (awkward none (some false))).value := by
  have valid (flags : Option Flags) (mark : Option Bool) :
      Valid Graph.decode (awkward flags mark) :=
    Graph.valid_iff.mpr (List.forall_mem_singleton.mpr (by decide))
  refine ⟨renderJson_lossless.1 _ (valid _ _), fun same => ?_⟩
  nomatch renderJson_lossless.2 _ _ (valid _ _) (valid _ _) same

end Pipeline

end Wiring
