import Wiring.Schema.Decode

/-! # Reading the fields of an object

An object is read field by field, and the keys that no field uses are issues of their own. If one
member of the object is replaced, only the field that uses its key reads anything else.
-/

namespace Wiring

namespace Json

private theorem lookup?_upsert (members : List (String × Value)) (key other : String)
    (value : Value) :
    lookup? (upsert members key value) other =
      if other = key then some value else lookup? members other := by
  induction members with
  | nil =>
    by_cases same : other = key
    · simp [upsert, lookup?, same]
    · simp [upsert, lookup?, same, Ne.symm same]
  | cons member rest ih =>
    simp only [upsert, lookup?] at ih ⊢
    split
    · rename_i here
      by_cases same : other = key
      · simp [same]
      · simp [same, here, Ne.symm same]
    · rename_i elsewhere
      by_cases same : member.1 = other
      · have apart : other ≠ key := fun equal => elsewhere (same.trans equal)
        simp [same, apart]
      · simp only [List.find?_cons, beq_eq_false_iff_ne.mpr same, ih]

/-- The keys of an object do not depend on the values that it gives to them. -/
theorem map_fst_upsert (members : List (String × Value)) (key : String) (value other : Value) :
    (upsert members key value).map (·.1) = (upsert members key other).map (·.1) := by
  induction members with
  | nil => rfl
  | cons member rest ih =>
    simp only [upsert]
    split
    · rfl
    · simp only [List.map_cons, ih]

end Json

namespace Schema

open Json (Value)

namespace Fields

variable {α : Type} {keys : List String} {key : String} (members : List (String × Value))
  (value : Value) (absent : α) (decode : Decoder α)

private theorem find?_upsert (other : key ∉ keys) :
    find? keys (Json.upsert members key value) = find? keys members := by
  induction keys with
  | nil => rfl
  | cons first rest ih =>
    obtain ⟨apart, later⟩ := not_or.mp (mt List.mem_cons.mpr other)
    have same : Json.lookup? (Json.upsert members key value) first = Json.lookup? members first := by
      rw [Json.lookup?_upsert, if_neg (Ne.symm apart)]
    simp only [find?] at ih ⊢
    rw [List.findSome?_cons, List.findSome?_cons, same, ih later]

/-- A field does not see the values of keys that it does not use. -/
theorem withDefault_upsert (other : key ∉ keys) :
    withDefault keys absent decode (Json.upsert members key value) =
      withDefault keys absent decode members := by
  simp only [withDefault, find?_upsert members value other]

theorem withDefault_upsert_self :
    withDefault [key] absent decode (Json.upsert members key value) =
      ⟨[key], (decode value).within (.key key)⟩ := by
  simp [withDefault, find?, Json.lookup?_upsert]

end Fields

/-- An outcome beside issues of another kind. -/
def Checked.beside {α : Type} (outcome : Checked α) (others : List Issue) : Checked α :=
  match outcome, others with
  | .ok value, [] => .ok value
  | .ok _, issues => .error issues
  | .error issues, others => .error (issues ++ others)

theorem Checked.map_beside {α β : Type} (use : α → β) (outcome : Checked α) (others : List Issue) :
    (outcome.beside others).map use = Checked.beside (outcome.map use) others := by
  cases outcome <;> cases others <;> rfl

/-- The issues of the keys that no field uses. -/
def unknownKeys (used keys : List String) : List Issue :=
  (keys.filter fun key => !used.contains key).map fun key => ⟨.unknownKey, [.key key]⟩

theorem record_obj {α : Type} (model : String) (fields : Fields α)
    (members : List (String × Value)) :
    record model fields (.obj members) =
      (fields members).outcome.beside (unknownKeys (fields members).used (members.map (·.1))) := by
  rw [unknownKeys, List.filter_map, List.map_map]
  rfl

theorem items_text (position : Nat) (texts : List String) :
    Decoder.items Decoder.text position (texts.map .str) = .ok texts := by
  induction texts generalizing position with
  | nil => rfl
  | cons text rest ih =>
    simp only [List.map_cons, Decoder.items, ih]
    rfl

end Schema

end Wiring
