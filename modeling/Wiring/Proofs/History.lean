import Mathlib.Algebra.BigOperators.Group.List.Basic
import Mathlib.Algebra.GroupWithZero.Nat
import Mathlib.Data.List.DropRight
import Mathlib.Data.List.Induction
import Wiring.Proofs.Diagnostics
import Wiring.Proofs.Firsts

/-! # The history of a store

Whatever is done to a store, its warnings are told by what was added since it was last reset: the
first diagnostic with each key, in order of arrival. The keys are those of the warnings. Grouping
the warnings sorts each of them into one bucket, that of its category, and keeps their order.
-/

namespace Wiring

private theorem Diagnostic.Category.mem_all (category : Category) : category ∈ all := by
  cases category <;> decide

namespace Diagnostics

open Diagnostic (Category Key Severity)

/-- What is done to a store. -/
inductive Operation where
  | add (diagnostic : Diagnostic)
  | warn (category : Category) (message file : String) (line column : Option Int)
    (suggestion : Option String) (severity : Severity)
  | reset

namespace Operation

def isReset : Operation → Bool
  | reset => true
  | add _ | warn _ _ _ _ _ _ _ => false

def diagnostic? : Operation → Option Diagnostic
  | add diagnostic => some diagnostic
  | warn category message file line column suggestion severity =>
    some ⟨category, message, file, line, column, suggestion, severity⟩
  | reset => none

end Operation

def perform (store : Diagnostics) : Operation → Diagnostics
  | .add diagnostic => (store.record diagnostic).1
  | .warn category message file line column suggestion severity =>
    (store.warn category message file line column suggestion severity).1
  | .reset => store.reset

/-- The store after operations, starting with nothing recorded. -/
def after (operations : List Operation) : Diagnostics := operations.foldl perform .empty

/-- The diagnostics that were added since the last reset, in order of arrival. -/
def sinceReset (operations : List Operation) : List Diagnostic :=
  (operations.rtakeWhile fun operation => !operation.isReset).filterMap Operation.diagnostic?

section Recording

variable (store : Diagnostics) (diagnostic : Diagnostic)

/-- A diagnostic is recorded exactly when its key is new. -/
theorem record_cases :
    (diagnostic.key ∈ store.keys ∧ store.record diagnostic = (store, false)) ∨
      (diagnostic.key ∉ store.keys ∧ (store.record diagnostic).2 = true ∧
        (store.record diagnostic).1.warnings = store.warnings ++ [diagnostic]) := by
  by_cases old : diagnostic.key ∈ store.keys
  · exact .inl ⟨old, if_pos old⟩
  · refine .inr ⟨old, ?_⟩
    rw [record, if_neg old]
    exact ⟨rfl, rfl⟩

theorem recorded_iff_grew :
    (store.record diagnostic).2 = true ↔
      store.warnings.length < (store.record diagnostic).1.warnings.length := by
  rcases store.record_cases diagnostic with ⟨_, same⟩ | ⟨_, recorded, grown⟩
  · simp [same]
  · simp [recorded, grown]

private theorem novel_eq_newBy (known : List Key) (diagnostics : List Diagnostic) :
    novel known diagnostics = newBy Diagnostic.key known diagnostics := by
  induction diagnostics generalizing known with
  | nil => rfl
  | cons first rest ih =>
    rw [novel]
    split
    · rename_i old
      rw [newBy_cons_of_mem old, ih]
    · rename_i fresh
      rw [newBy_cons_of_notMem fresh, ih]
      refine congrArg _ (newBy_congr fun key => ?_)
      simp [or_comm]

end Recording

section Run

variable (operations : List Operation)

private theorem sinceReset_add {operation : Operation} {diagnostic : Diagnostic}
    (adds : operation.diagnostic? = some diagnostic) :
    sinceReset (operations ++ [operation]) = sinceReset operations ++ [diagnostic] := by
  have stays : (!operation.isReset) = true := by
    cases operation with
    | add _ => rfl
    | warn _ _ _ _ _ _ _ => rfl
    | reset => simp [Operation.diagnostic?] at adds
  have longer := List.rtakeWhile_concat_pos (fun operation : Operation => !operation.isReset)
    operations operation stays
  rw [sinceReset, longer, List.filterMap_append, sinceReset]
  simp [adds]

private theorem sinceReset_reset : sinceReset (operations ++ [.reset]) = [] := by
  rw [sinceReset, List.rtakeWhile_concat_neg _ _ _ (by simp [Operation.isReset])]
  rfl

/-- One more diagnostic is kept if none before it has its key. -/
theorem warnings_record {history : List Diagnostic} {store : Diagnostics}
    (kept : store.warnings = novel [] history) (diagnostic : Diagnostic) :
    (store.record diagnostic).1.warnings = novel [] (history ++ [diagnostic]) := by
  have known : [] ++ (novel [] history).map (·.key) = store.keys := by
    rw [store.keys_eq, kept, List.nil_append]
  rw [novel_append, known, ← kept, novel_singleton]
  rcases store.record_cases diagnostic with ⟨old, same⟩ | ⟨fresh, _, grown⟩
  · rw [if_pos old, same, List.append_nil]
  · rw [if_neg fresh, grown]

/-- The warnings after operations are the new ones among what was added since the last reset. -/
theorem warnings_after : (after operations).warnings = novel [] (sinceReset operations) := by
  induction operations using List.reverseRecOn with
  | nil => rfl
  | append_singleton before operation ih =>
    have last : after (before ++ [operation]) = (after before).perform operation := by
      rw [after, List.foldl_append, after]
      rfl
    rw [last]
    cases operation with
    | add diagnostic =>
      rw [sinceReset_add before rfl]
      exact warnings_record ih diagnostic
    | warn category message file line column suggestion severity =>
      rw [sinceReset_add before rfl]
      exact warnings_record ih _
    | reset =>
      rw [sinceReset_reset]
      rfl

end Run

section Grouping

variable (store : Diagnostics)

/-- Sorting diagnostics in puts those of a category behind what its bucket holds. -/
theorem foldl_sortIn (categories : List Category) (held : Category → List Diagnostic)
    (diagnostics : List Diagnostic) :
    diagnostics.foldl sortIn (categories.map fun category => (category, held category)) =
      categories.map fun category =>
        (category, held category ++ diagnostics.filter (·.category = category)) := by
  induction diagnostics generalizing held with
  | nil => simp
  | cons first rest ih =>
    have sorted : sortIn (categories.map fun category => (category, held category)) first =
        categories.map fun category =>
          (category, if first.category = category then held category ++ [first]
            else held category) := by
      simp only [sortIn, List.map_map]
      rfl
    rw [List.foldl_cons, sorted, ih]
    refine List.map_congr_left fun category _ => ?_
    by_cases own : first.category = category <;> simp [own]

/-- There is one bucket for each category, with the warnings of that category. -/
theorem buckets_grouped :
    store.grouped.buckets =
      Category.all.map fun category => (category, store.ofCategory category) :=
  foldl_sortIn Category.all (fun _ => []) store.warnings

/-- Together the buckets hold the warnings, each as often as the store does. -/
theorem buckets_perm : (store.grouped.buckets.flatMap (·.2)).Perm store.warnings := by
  rw [buckets_grouped, List.flatMap_map, List.perm_iff_count]
  intro warning
  have each (category : Category) : (store.ofCategory category).count warning =
      if warning.category = category then store.warnings.count warning else 0 := by
    split
    · rename_i own
      exact List.count_filter (by simp [own])
    · rename_i other
      refine List.count_eq_zero.mpr fun listed => other ?_
      exact of_decide_eq_true (List.mem_filter.mp listed).2
  -- of the six counts one is that of the store, and the others are zero
  simp only [List.count_flatMap, Category.all, List.map_cons, List.map_nil, Function.comp_apply,
    each, List.sum_cons, List.sum_nil]
  cases warning.category <;> simp

/-- A grouping with one bucket for each category, which sorts every warning of a store into the
bucket of its category and keeps the order of the warnings. -/
structure Partitions (store : Diagnostics) (grouping : Grouping) : Prop where
  categories : grouping.buckets.map (·.1) = Category.all
  bucket_iff : ∀ category bucket,
    (category, bucket) ∈ grouping.buckets ↔ bucket = store.ofCategory category
  ordered : ∀ entry ∈ grouping.buckets, entry.2.Sublist store.warnings
  complete : (grouping.buckets.flatMap (·.2)).Perm store.warnings
  total : grouping.total = (grouping.buckets.map (·.2.length)).sum

theorem grouped_partitions : store.Partitions store.grouped where
  categories := by
    rw [buckets_grouped, List.map_map]
    exact List.map_id _
  bucket_iff category bucket := by
    rw [buckets_grouped, List.mem_map]
    constructor
    · rintro ⟨other, _, same⟩
      obtain ⟨rfl, rfl⟩ := Prod.mk.inj same
      rfl
    · rintro rfl
      exact ⟨category, category.mem_all, rfl⟩
  ordered entry listed := by
    rw [buckets_grouped] at listed
    obtain ⟨category, _, rfl⟩ := List.mem_map.mp listed
    exact List.filter_sublist
  complete := store.buckets_perm
  total := by
    rw [← List.length_flatMap, store.buckets_perm.length_eq]
    rfl

end Grouping

/-- After any operations the warnings are the first with each key among the diagnostics that were
added since the last reset, in order of arrival. The keys are those of the warnings, and so those
of all these diagnostics; no two warnings have the same. Adding a diagnostic tells whether there is
one warning more, and grouping partitions the warnings by their categories. -/
theorem after_keeps_firsts (operations : List Operation) :
    let store := after operations
    store.warnings = firstsBy (·.key) (sinceReset operations) ∧
    (∀ key, key ∈ store.keys ↔ ∃ warning ∈ store.warnings, warning.key = key) ∧
    (∀ key, key ∈ store.keys ↔ ∃ diagnostic ∈ sinceReset operations, diagnostic.key = key) ∧
    (store.warnings.map (·.key)).Nodup ∧
    (∀ diagnostic, (store.record diagnostic).2 = true ↔
      store.warnings.length < (store.record diagnostic).1.warnings.length) ∧
    store.Partitions store.grouped := by
  intro store
  have firsts : store.warnings = firstsBy (·.key) (sinceReset operations) := by
    rw [warnings_after, novel_eq_newBy, newBy_nil_left]
  refine ⟨firsts, fun key => ?_, fun key => ?_, ?_, store.recorded_iff_grew,
    store.grouped_partitions⟩
  · rw [store.keys_eq, List.mem_map]
  · rw [store.keys_eq, firsts, mem_map_firstsBy_iff, List.mem_map]
  · rw [firsts]
    exact nodup_map_firstsBy _ _

end Diagnostics

end Wiring
