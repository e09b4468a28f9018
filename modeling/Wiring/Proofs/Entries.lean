import Mathlib.Data.List.TakeWhile
import Wiring.Proofs.Distribution
import Wiring.Proofs.Fields
import Wiring.Proofs.Pipeline

/-! # Entries of a configuration

The entries of a configuration are trimmed, and each is taken once. So their order, repetitions
and blanks around them have no influence on which graph is built.
-/

namespace Wiring

namespace Text

private theorem trimChars_pad {drop : Char → Bool} {before after : List Char} (chars : List Char)
    (blankBefore : ∀ c ∈ before, drop c = true) (blankAfter : ∀ c ∈ after, drop c = true) :
    trimChars drop (before ++ chars ++ after) = trimChars drop chars := by
  unfold trimChars
  rw [List.append_assoc, List.dropWhile_append_of_pos blankBefore, List.dropWhile_append]
  split
  · rename_i nothing
    rw [List.dropWhile_eq_nil_iff.mpr blankAfter, List.isEmpty_iff.mp nothing]
  · rw [List.reverse_append, List.dropWhile_append_of_pos]
    simpa using blankAfter

/-- Blanks around a text are trimmed away. -/
theorem trim_pad {before after : String} (text : String)
    (blankBefore : ∀ c ∈ before.toList, isBlank c = true)
    (blankAfter : ∀ c ∈ after.toList, isBlank c = true) :
    trim (before ++ text ++ after) = trim text := by
  rw [trim, String.toList_append, String.toList_append, trimChars_pad _ blankBefore blankAfter, trim]

end Text

namespace Config

open Schema
open Json (Value)

private theorem mem_foldl_addEntry {id : String} (entries written : List String) :
    id ∈ written.foldl addEntry entries ↔ id ∈ entries ∨ id ∈ written := by
  induction written generalizing entries with
  | nil => simp
  | cons entry rest ih =>
    have added : id ∈ addEntry entries entry ↔ id ∈ entries ∨ id = entry := by
      unfold addEntry
      split
      · rename_i present
        refine (or_iff_left_of_imp ?_).symm
        rintro rfl
        exact present
      · rw [List.mem_append, List.mem_singleton]
    rw [List.foldl_cons, ih, added, List.mem_cons, or_assoc]

/-- Trimming every text of a list fails if one of them is blank. -/
theorem mapM_trim {read : String → Except Problem String} (problem : Problem)
    (reads : ∀ text, read text =
      if Text.trim text = "" then .error problem else .ok (Text.trim text))
    (written : List String) :
    written.mapM read =
      if "" ∈ written.map Text.trim then .error problem else .ok (written.map Text.trim) := by
  induction written with
  | nil => rfl
  | cons text rest ih =>
    simp only [List.mapM_cons, ih, reads, List.map_cons, List.mem_cons]
    by_cases blank : Text.trim text = ""
    · simp only [blank, true_or, if_true]
      rfl
    · simp only [if_neg blank, Ne.symm blank, false_or]
      split <;> rfl

/-- The entries are the trimmed texts, each once, unless one of them is blank. -/
theorem entriesOf_eq (written : List String) :
    entriesOf written =
      if "" ∈ written.map Text.trim then .error (.broken "Entry ids must be non-empty strings")
      else .ok ((written.map Text.trim).foldl addEntry []) := by
  unfold entriesOf
  rw [mapM_trim (.broken "Entry ids must be non-empty strings") fun text => ?reads]
  case reads =>
    unfold Text.nonBlank?
    by_cases blank : Text.trim text = ""
    · simp only [if_pos blank]
    · simp only [if_neg blank]
  split <;> rfl

private theorem decode_ofStrings (written : List String) :
    ((Decoder.list Decoder.text).nullable.refine fun entries => entriesOf (entries.getD []))
        (.ofStrings written) =
      (entriesOf written).mapError fun problem => [⟨problem, []⟩] := by
  have texts : Decoder.list Decoder.text (.ofStrings written) = .ok written := items_text 0 written
  simp only [Decoder.refine, Decoder.nullable, Value.ofStrings] at texts ⊢
  rw [texts]
  cases read : entriesOf written <;> simp only [Except.map, Option.getD_some, read, Except.mapError]

/-- What is made of a configuration does not depend on how its entries are written, if that does
not decide whether they are read, and if what is made of them is the same. -/
theorem map_decode_congr {α : Type} (use : Config → α) (members : List (String × Value))
    {written respelled : List String}
    (same : (∃ problem, entriesOf written = .error problem ∧ entriesOf respelled = .error problem) ∨
      ∃ entries others, entriesOf written = .ok entries ∧ entriesOf respelled = .ok others ∧
        ∀ direction includeFlags,
          use ⟨direction, others, includeFlags⟩ = use ⟨direction, entries, includeFlags⟩) :
    (decode (.obj (Json.upsert members "entry" (.ofStrings respelled)))).map use =
      (decode (.obj (Json.upsert members "entry" (.ofStrings written)))).map use := by
  rw [decode, record_obj, record_obj, Checked.map_beside, Checked.map_beside,
    Json.map_fst_upsert members "entry" (.ofStrings respelled) (.ofStrings written)]
  simp only [Functor.map, Seq.seq, Fields.withDefault_upsert_self, decode_ofStrings,
    Fields.withDefault_upsert members _ _ _ (show "entry" ∉ ["direction"] by decide),
    Fields.withDefault_upsert members _ _ _
      (show "entry" ∉ ["includeDecorators", "include_decorators"] by decide)]
  congr 1
  -- what is left of the two readings differs in the entries alone
  rcases same with ⟨problem, read, reread⟩ | ⟨entries, others, read, reread, same⟩
  · rw [read, reread]
  · rw [read, reread]
    generalize (Fields.withDefault ["direction"] _ decodeDirection members).outcome = direction
    generalize (Fields.withDefault _ false Decoder.bool members).outcome = includeFlags
    cases direction with
    | error issues => cases includeFlags <;> rfl
    | ok direction =>
      cases includeFlags with
      | error issues => rfl
      | ok includeFlags => exact congrArg Except.ok (same direction includeFlags)

/-- The same ids, written in another order, repeatedly, or with blanks around them. -/
inductive Respelled : List String → List String → Prop
  | reorder {written other : List String} (shuffled : written.Perm other) : Respelled written other
  | again {written : List String} {entry : String} (listed : entry ∈ written) :
    Respelled written (entry :: written)
  | pad {written : List String} {entry before after : String}
    (blankBefore : ∀ c ∈ before.toList, Text.isBlank c = true)
    (blankAfter : ∀ c ∈ after.toList, Text.isBlank c = true) :
    Respelled (entry :: written) ((before ++ entry ++ after) :: written)
  | symm {written other : List String} (respelled : Respelled written other) :
    Respelled other written
  | trans {written other third : List String} (first : Respelled written other)
    (second : Respelled other third) : Respelled written third

theorem Respelled.mem_trim_iff {written other : List String} (respelled : Respelled written other)
    (id : String) : id ∈ other.map Text.trim ↔ id ∈ written.map Text.trim := by
  induction respelled with
  | reorder shuffled => exact (shuffled.map Text.trim).mem_iff.symm
  | @again written entry listed =>
    rw [List.map_cons, List.mem_cons]
    refine or_iff_right_of_imp ?_
    rintro rfl
    exact List.mem_map_of_mem listed
  | pad blankBefore blankAfter =>
    rw [List.map_cons, Text.trim_pad _ blankBefore blankAfter, List.map_cons]
  | symm _ ih => exact ih.symm
  | trans _ _ first second => exact second.trans first

/-- Another spelling is refused for the same reason, or gives the same ids. -/
theorem Respelled.reads_alike {written other : List String} (respelled : Respelled written other) :
    (∃ problem, entriesOf written = .error problem ∧ entriesOf other = .error problem) ∨
      ∃ entries others, entriesOf written = .ok entries ∧ entriesOf other = .ok others ∧
        ∀ id, id ∈ others ↔ id ∈ entries := by
  by_cases blank : "" ∈ written.map Text.trim
  · refine .inl ⟨.broken "Entry ids must be non-empty strings", ?_, ?_⟩
    · rw [entriesOf_eq, if_pos blank]
    · rw [entriesOf_eq, if_pos ((respelled.mem_trim_iff "").mpr blank)]
  · refine .inr ⟨_, _, (entriesOf_eq written).trans (if_neg blank),
      (entriesOf_eq other).trans (if_neg (mt (respelled.mem_trim_iff "").mp blank)), fun id => ?_⟩
    rw [mem_foldl_addEntry, mem_foldl_addEntry, respelled.mem_trim_iff]

end Config

namespace Pipeline

/-- Which graph is built depends on the set of entries alone. -/
theorem build_congr (direction : Direction) (includeFlags : Bool) (records : List Record)
    {entries others : List String} (same : ∀ id, id ∈ others ↔ id ∈ entries) :
    (build ⟨direction, others, includeFlags⟩ records).value =
      (build ⟨direction, entries, includeFlags⟩ records).value := by
  cases resolution : resolve records with
  | error fault => simp only [build, resolution]
  | ok resolved =>
    rw [build_value _ resolution, build_value _ resolution, Graph.restrict_eq_of_mem_iff same]

/-- A restriction keeps for several entries what it keeps for some of them, and both ways what it
keeps in either direction. So which graph is built depends on the set of entries alone, and not on
how a configuration writes them. -/
theorem entries_distribute (plain : Graph) :
    let graph := plain.markCycles
    (∀ entries direction, entries ≠ [] →
      graph.restrict entries direction = graph.select (graph.selection entries direction)) ∧
    (∀ first second direction, graph.selection (first ++ second) direction =
      (graph.selection first direction).union (graph.selection second direction)) ∧
    (∀ entries, graph.selection entries .both =
      (graph.selection entries .downstream).union (graph.selection entries .upstream)) ∧
    (∀ entries others direction, (∀ id, id ∈ others ↔ id ∈ entries) →
      graph.restrict others direction = graph.restrict entries direction) ∧
    ∀ members written respelled records, Config.Respelled written respelled →
      (Config.decode (.obj (Json.upsert members "entry" (.ofStrings respelled)))).map
          (fun config => (build config records).value) =
        (Config.decode (.obj (Json.upsert members "entry" (.ofStrings written)))).map
          fun config => (build config records).value := by
  refine ⟨fun entries direction nonempty => Graph.restrict_eq_select nonempty direction,
    Graph.selection_append plain, Graph.selection_both plain,
    fun entries others direction same => Graph.restrict_eq_of_mem_iff same direction, ?_⟩
  intro members written respelled records spelled
  refine Config.map_decode_congr _ members ?_
  rcases spelled.reads_alike with refused | ⟨entries, others, read, reread, same⟩
  · exact .inl refused
  · exact .inr ⟨entries, others, read, reread,
      fun direction includeFlags => build_congr direction includeFlags records same⟩

theorem entries_distribute_tangled :
    ["A"] ≠ [] ∧
    Graph.knot.markCycles.restrict ["A"] .both =
      Graph.knot.markCycles.select (Graph.knot.markCycles.selection ["A"] .both) ∧
    (∀ id, id ∈ ["X", "A", "X"] ↔ id ∈ ["A", "X"]) ∧
    Graph.knot.markCycles.restrict ["X", "A", "X"] .upstream =
      Graph.knot.markCycles.restrict ["A", "X"] .upstream ∧
    Config.Respelled ["Orders", "Users"] ["\tUsers ", "Users", "Orders"] ∧
    (Config.decode (.obj (Json.upsert [("direction", .str "both")] "entry"
        (.ofStrings ["\tUsers ", "Users", "Orders"])))).map
        (fun config => (build config tangled).value) =
      (Config.decode (.obj (Json.upsert [("direction", .str "both")] "entry"
        (.ofStrings ["Orders", "Users"])))).map
        fun config => (build config tangled).value := by
  obtain ⟨selects, -, -, bySet, bySpelling⟩ := entries_distribute Graph.knot
  have same : ∀ id, id ∈ ["X", "A", "X"] ↔ id ∈ ["A", "X"] := by
    intro id
    simp only [List.mem_cons]
    tauto
  have twice : Config.Respelled ["Orders", "Users"] ["Users", "Users", "Orders"] :=
    .trans (.reorder (.swap ..)) (.again (by decide))
  have tab : ∀ c ∈ "\t".toList, Text.isBlank c = true := List.forall_mem_singleton.mpr rfl
  have space : ∀ c ∈ " ".toList, Text.isBlank c = true := List.forall_mem_singleton.mpr rfl
  have spelled : Config.Respelled ["Orders", "Users"] ["\tUsers ", "Users", "Orders"] :=
    twice.trans (@Config.Respelled.pad _ "Users" _ _ tab space)
  exact ⟨by decide, selects ["A"] .both (by decide), same, bySet _ _ .upstream same, spelled,
    bySpelling _ _ _ tangled spelled⟩

end Pipeline

end Wiring
