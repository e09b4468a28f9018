import Mathlib.Data.List.Nodup

/-! # The first of items with the same key

Where several items have the same key, the first one stands for them. What is left has the keys
that there were, each once. A pass that knows some keys from before leaves out their items too, so
it is described by the items whose keys are not among them.
-/

namespace Wiring

variable {α β : Type} [DecidableEq β]

/-- The first item with each key, in order. -/
def firstsBy (key : α → β) : List α → List α
  | [] => []
  | item :: rest => item :: (firstsBy key rest).filter fun other => key other ≠ key item

/-- The first item with each key that is not known, in order. -/
def newBy (key : α → β) (known : List β) (items : List α) : List α :=
  (firstsBy key items).filter fun item => key item ∉ known

variable {key : α → β} {known : List β} {items rest : List α} {item : α}

/-- No key is lost, and none is new. -/
theorem mem_map_firstsBy_iff {wanted : β} :
    wanted ∈ (firstsBy key items).map key ↔ wanted ∈ items.map key := by
  induction items with
  | nil => rfl
  | cons item rest ih =>
    rw [firstsBy, List.map_cons, List.mem_cons, List.map_cons, List.mem_cons, ← ih]
    by_cases here : wanted = key item
    · simp [here]
    · simp only [here, false_or, List.mem_map, List.mem_filter, decide_eq_true_eq]
      constructor
      · rintro ⟨other, ⟨listed, _⟩, same⟩
        exact ⟨other, listed, same⟩
      · rintro ⟨other, listed, rfl⟩
        exact ⟨other, ⟨listed, here⟩, rfl⟩

theorem nodup_map_firstsBy (key : α → β) (items : List α) :
    ((firstsBy key items).map key).Nodup := by
  induction items with
  | nil => exact List.nodup_nil
  | cons item rest ih =>
    rw [firstsBy, List.map_cons, List.nodup_cons]
    constructor
    · intro again
      obtain ⟨other, listed, same⟩ := List.mem_map.mp again
      exact of_decide_eq_true (List.mem_filter.mp listed).2 same
    · exact ih.sublist (List.filter_sublist.map key)

/-- Items with different keys are all firsts. -/
theorem firstsBy_eq_self (nodup : (items.map key).Nodup) : firstsBy key items = items := by
  induction items with
  | nil => rfl
  | cons item rest ih =>
    obtain ⟨isNew, nodup⟩ := List.nodup_cons.mp nodup
    rw [firstsBy, ih nodup, List.filter_eq_self.mpr]
    intro other listed
    apply decide_eq_true
    intro same
    exact isNew (List.mem_map.mpr ⟨other, listed, same⟩)

theorem newBy_nil_left (key : α → β) (items : List α) :
    newBy key [] items = firstsBy key items := by
  simp [newBy]

theorem newBy_cons_of_mem (old : key item ∈ known) :
    newBy key known (item :: rest) = newBy key known rest := by
  rw [newBy, firstsBy, List.filter_cons_of_neg (by simp [old]), List.filter_filter, newBy]
  refine List.filter_congr fun other _ => ?_
  -- an item that is not known has another key than one that is
  have apart : key other ∉ known → key other ≠ key item := fun fresh same => fresh (same ▸ old)
  simpa using apart

theorem newBy_cons_of_notMem (fresh : key item ∉ known) :
    newBy key known (item :: rest) = item :: newBy key (key item :: known) rest := by
  rw [newBy, firstsBy, List.filter_cons_of_pos (by simp [fresh]), List.filter_filter, newBy]
  refine congrArg _ (List.filter_congr fun other _ => ?_)
  simp [Bool.and_comm]

/-- Only which keys are known matters. -/
theorem newBy_congr {others : List β} (same : ∀ wanted, wanted ∈ known ↔ wanted ∈ others) :
    newBy key known items = newBy key others items := by
  simp only [newBy, same]

end Wiring
