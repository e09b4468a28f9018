import Wiring.Proofs.Fields

/-! # Values that can be decoded

What a decoder gives is valid: some JSON value is read as it. A record is read field by field, so
the parts of a valid record are valid. In the other direction, an object is read as a record if each
field finds a key with a value that it can read, and no key is left over.
-/

namespace Wiring.Schema

open Json (Value lookup?)

variable {α β γ : Type} {decode : Decoder α} {value : Value} {a : α}

/-- A value that some JSON value is read as. -/
def Valid (decode : Decoder α) (a : α) : Prop := ∃ value, decode value = .ok a

namespace Checked

theorem both_eq_ok {combine : α → β → γ} {left : Checked α} {right : Checked β} {c : γ} :
    both combine left right = .ok c ↔ ∃ a b, left = .ok a ∧ right = .ok b ∧ combine a b = c := by
  cases left <;> cases right <;> simp [both]

theorem within_eq_ok {step : Step} {outcome : Checked α} :
    within step outcome = .ok a ↔ outcome = .ok a := by
  cases outcome <;> simp [within]

theorem beside_eq_ok {outcome : Checked α} {others : List Issue} :
    outcome.beside others = .ok a ↔ outcome = .ok a ∧ others = [] := by
  cases outcome <;> cases others <;> simp [beside]

end Checked

namespace Decoder

theorem text_str (s : String) : text (.str s) = .ok s := rfl

theorem bool_bool (b : Bool) : bool (.bool b) = .ok b := rfl

theorem nonEmptyText_str {s : String} (nonempty : s ≠ "") : nonEmptyText (.str s) = .ok s :=
  if_neg nonempty

theorem ne_empty_of_valid {s : String} (valid : Valid nonEmptyText s) : s ≠ "" := by
  obtain ⟨value, decoded⟩ := valid
  unfold nonEmptyText at decoded
  split at decoded
  · split at decoded
    · nomatch decoded
    · cases decoded
      assumption
  · nomatch decoded
  · nomatch decoded

theorem refine_eq_ok {rule : α → Except Problem β} {b : β} :
    refine decode rule value = .ok b ↔ ∃ a, decode value = .ok a ∧ rule a = .ok b := by
  unfold refine
  split
  · rename_i refused
    simp [refused]
  · rename_i decoded
    simp only [decoded, Except.ok.injEq, exists_eq_left']
    split <;> simp_all

private theorem nullable_of_ok (decoded : decode value = .ok a) (present : value ≠ .null) :
    decode.nullable value = .ok (some a) := by
  unfold nullable
  split
  · exact absurd rfl present
  · rw [decoded]
    rfl

/-- What may be absent is read back if it is written as null then. -/
theorem nullable_getD {encode : α → Value} (part : Option α) (present : ∀ a, encode a ≠ .null)
    (decoded : ∀ a ∈ part, decode (encode a) = .ok a) :
    decode.nullable ((part.map encode).getD .null) = .ok part := by
  cases part with
  | none => rfl
  | some a => exact nullable_of_ok (decoded a rfl) (present a)

private theorem items_map {encode : α → Value} {read : α → β} {decode : Decoder β} (position : Nat)
    {parts : List α} (decoded : ∀ a ∈ parts, decode (encode a) = .ok (read a)) :
    items decode position (parts.map encode) = .ok (parts.map read) := by
  induction parts generalizing position with
  | nil => rfl
  | cons a parts ih =>
    rw [List.map_cons, items, decoded a (List.mem_cons_self ..),
      ih _ fun b listed => decoded b (List.mem_cons_of_mem _ listed)]
    rfl

/-- A list is read as what its items are read as. -/
theorem list_map {encode : α → Value} {read : α → β} {decode : Decoder β} {parts : List α}
    (decoded : ∀ a ∈ parts, decode (encode a) = .ok (read a)) :
    list decode (.arr (parts.map encode)) = .ok (parts.map read) :=
  items_map 0 decoded

theorem list_map_self {encode : α → Value} {parts : List α}
    (decoded : ∀ a ∈ parts, decode (encode a) = .ok a) :
    list decode (.arr (parts.map encode)) = .ok parts := by
  rw [list_map decoded, List.map_id']

theorem nullable_ofString? (part : Option String) : text.nullable (.ofString? part) = .ok part := by
  cases part <;> rfl

theorem nullable_ofWriting? (part : Option Json.Writing) :
    writing.nullable (.ofWriting? part) = .ok part := by
  rcases part with _ | (_ | _) <;> rfl

theorem nullable_ofBool? (part : Option Bool) : bool.nullable (.ofBool? part) = .ok part := by
  cases part <;> rfl

/-- A number that counts from one is read back. -/
theorem ordinal_ofNat {n : Nat} (valid : Valid ordinal n) : ordinal (.ofNat n) = .ok n := by
  obtain ⟨value, decoded⟩ := valid
  obtain ⟨read, _, counted⟩ := refine_eq_ok.mp decoded
  refine refine_eq_ok.mpr ⟨n, rfl, ?_⟩
  split at counted
  · nomatch counted
  · cases counted
    rw [if_neg (by omega)]
    rfl

theorem valid_of_nullable {part : Option α} (valid : Valid decode.nullable part)
    (present : a ∈ part) : Valid decode a := by
  obtain ⟨value, decoded⟩ := valid
  unfold nullable at decoded
  split at decoded
  · cases decoded
    nomatch present
  · cases outcome : decode value with
    | error issues =>
      rw [outcome] at decoded
      nomatch decoded
    | ok b =>
      rw [outcome] at decoded
      cases decoded
      cases present
      exact ⟨value, outcome⟩

private theorem valid_of_items {position : Nat} {values : List Value} {parts : List α}
    (decoded : items decode position values = .ok parts) : ∀ a ∈ parts, Valid decode a := by
  induction values generalizing position parts with
  | nil =>
    cases decoded
    nofun
  | cons value values ih =>
    obtain ⟨a, rest, first, others, rfl⟩ := Checked.both_eq_ok.mp decoded
    intro b listed
    rcases List.mem_cons.mp listed with rfl | later
    · exact ⟨value, Checked.within_eq_ok.mp first⟩
    · exact ih others b later

theorem valid_of_list {parts : List α} (valid : Valid (list decode) parts) :
    ∀ a ∈ parts, Valid decode a := by
  obtain ⟨value, decoded⟩ := valid
  unfold list at decoded
  split at decoded
  · exact valid_of_items decoded
  · nomatch decoded

end Decoder

namespace Fields

variable {members : List (String × Value)} {key : String} {keys used more : List String}
  {absent : α}

theorem map_apply (f : α → β) (fields : Fields α) (members : List (String × Value)) :
    (f <$> fields) members =
      ⟨(fields members).used, Checked.both (fun g a => g a) (.ok f) (fields members).outcome⟩ := rfl

private theorem seq_apply (fields : Fields (α → β)) (others : Fields α)
    (members : List (String × Value)) :
    (fields <*> others) members =
      ⟨(fields members).used ++ (others members).used,
        (fields members).outcome.both (fun g a => g a) (others members).outcome⟩ := rfl

section Accepting

/-- What fields give for an object: the keys that they use, and a result. -/
def Gives (fields : Fields α) (members : List (String × Value)) (used : List String) (a : α) :
    Prop :=
  fields members = ⟨used, .ok a⟩

theorem Gives.map {fields : Fields α} (f : α → β) (gives : fields.Gives members used a) :
    Gives (f <$> fields) members used (f a) := by
  rw [Gives, map_apply, gives]
  rfl

theorem Gives.seq {fields : Fields (α → β)} {others : Fields α} {f : α → β}
    (left : fields.Gives members used f) (right : others.Gives members more a) :
    Gives (fields <*> others) members (used ++ more) (f a) := by
  rw [Gives, seq_apply, left, right]
  rfl

theorem find?_cons (found : lookup? members key = some value) :
    find? (key :: keys) members = some (key, value) := by
  rw [find?, List.findSome?_cons, found]
  rfl

theorem required_gives (found : lookup? members key = some value) (decoded : decode value = .ok a) :
    (required (key :: keys) decode).Gives members [key] a := by
  rw [Gives, required, find?_cons found]
  simp only [Checked.within_eq_ok.mpr decoded]

theorem withDefault_gives (found : lookup? members key = some value)
    (decoded : decode value = .ok a) :
    (withDefault (key :: keys) absent decode).Gives members [key] a := by
  rw [Gives, withDefault, find?_cons found]
  simp only [Checked.within_eq_ok.mpr decoded]

private theorem withDefault_absent (none : ∀ key ∈ keys, lookup? members key = none) :
    (withDefault keys absent decode).Gives members [] absent := by
  have nothing : find? keys members = Option.none := by
    rw [find?, List.findSome?_eq_none_iff]
    intro key listed
    rw [none key listed]
    rfl
  rw [Gives, withDefault, nothing]

/-- A field that is null where its part is absent. -/
theorem nullable_gives_found {part : Option α} (found : lookup? members key = some value)
    (decoded : decode.nullable value = .ok part) :
    (nullable (key :: keys) decode).Gives members [key] part :=
  withDefault_gives found decoded

/-- A field that is left out where its part is absent. -/
theorem nullable_gives {encode : α → Value} {part : Option α}
    (found : lookup? members key = part.map encode)
    (others : ∀ other ∈ keys, lookup? members other = none) (present : ∀ a, encode a ≠ .null)
    (decoded : ∀ a ∈ part, decode (encode a) = .ok a) :
    (nullable (key :: keys) decode).Gives members (part.toList.map fun _ => key) part := by
  cases part with
  | none => exact withDefault_absent (List.forall_mem_cons.mpr ⟨found, others⟩)
  | some a => exact withDefault_gives found (Decoder.nullable_of_ok (decoded a rfl) (present a))

end Accepting

section Inverting

/-- A result that fields give for some object. -/
def Valid (fields : Fields α) (a : α) : Prop := ∃ members, (fields members).outcome = .ok a

theorem valid_of_map {f : α → β} {fields : Fields α} {b : β} (valid : Valid (f <$> fields) b) :
    ∃ a, Valid fields a ∧ f a = b := by
  obtain ⟨members, outcome⟩ := valid
  obtain ⟨g, a, same, given, applied⟩ := Checked.both_eq_ok.mp outcome
  cases same
  exact ⟨a, ⟨members, given⟩, applied⟩

theorem valid_of_seq {fields : Fields (α → β)} {others : Fields α} {b : β}
    (valid : Valid (fields <*> others) b) :
    ∃ f a, Valid fields f ∧ Valid others a ∧ f a = b := by
  obtain ⟨members, outcome⟩ := valid
  obtain ⟨f, a, left, right, applied⟩ := Checked.both_eq_ok.mp outcome
  exact ⟨f, a, ⟨members, left⟩, ⟨members, right⟩, applied⟩

theorem valid_of_required (valid : Valid (required keys decode) a) : Schema.Valid decode a := by
  obtain ⟨members, outcome⟩ := valid
  unfold required at outcome
  split at outcome
  · exact ⟨_, Checked.within_eq_ok.mp outcome⟩
  · nomatch outcome

theorem valid_of_withDefault (valid : Valid (withDefault keys absent decode) a) :
    a = absent ∨ Schema.Valid decode a := by
  obtain ⟨members, outcome⟩ := valid
  unfold withDefault at outcome
  split at outcome
  · exact .inr ⟨_, Checked.within_eq_ok.mp outcome⟩
  · cases outcome
    exact .inl rfl

theorem valid_of_nullable {part : Option α} (valid : Valid (nullable keys decode) part)
    (present : a ∈ part) : Schema.Valid decode a := by
  rcases valid_of_withDefault valid with rfl | valid
  · nomatch present
  · exact Decoder.valid_of_nullable valid present

end Inverting

end Fields

/-- An object is read as a record if its fields give a result and use all its keys. -/
theorem record_gives {fields : Fields α} {members : List (String × Value)} {used : List String}
    (model : String) (gives : fields.Gives members used a)
    (known : ∀ member ∈ members, member.1 ∈ used) : record model fields (.obj members) = .ok a := by
  rw [record_obj, gives, Checked.beside_eq_ok]
  refine ⟨rfl, ?_⟩
  rw [unknownKeys, List.map_eq_nil_iff, List.filter_eq_nil_iff]
  intro key listed
  obtain ⟨member, there, rfl⟩ := List.mem_map.mp listed
  simpa using known member there

theorem valid_of_record {fields : Fields α} {model : String}
    (valid : Valid (record model fields) a) : fields.Valid a := by
  obtain ⟨value, decoded⟩ := valid
  cases value with
  | obj members =>
    rw [record_obj] at decoded
    exact ⟨members, (Checked.beside_eq_ok.mp decoded).1⟩
  | _ => nomatch decoded

end Wiring.Schema
