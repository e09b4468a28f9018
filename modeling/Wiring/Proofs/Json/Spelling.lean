import Mathlib.Data.List.Nodup
import Wiring.Proofs.Json.Scalars

/-! # How a value may be spelled

A value has many texts: white space may stand before it, and before a closing bracket. Reading any
of them gives the value back, whatever follows, if what follows does not go on with a number. The
indented text is one of these texts, so it is read back as the value it was written for.
Floating-point numbers are left out, and so are objects in which a key is repeated, since the reader
joins the members with one key.
-/

namespace Wiring.Json

def Space (cs : List Char) : Prop := ∀ c ∈ cs, isSpace c = true

/-- Values without items or members. -/
inductive Scalar : Value → Prop
  | null : Scalar .null
  | bool (value : Bool) : Scalar (.bool value)
  | int (value : Int) : Scalar (.int value)
  | str (value : String) : Scalar (.str value)
  | emptyArr : Scalar (.arr [])
  | emptyObj : Scalar (.obj [])

/-- An item of an array, and its text. -/
structure Item where
  value : Value
  text : List Char

/-- A member of an object: its key with the white space before it, its value, and the value's
text. -/
structure Member where
  key : String
  value : Value
  space : List Char
  text : List Char

def Member.spelled (member : Member) : List Char :=
  member.space ++ quoteWith escapeChar member.key ++ ':' :: member.text

private theorem Member.spelled_append (member : Member) (after : List Char) :
    member.spelled ++ after = member.space ++
      '"' :: (member.key.toList.flatMap escapeChar ++ '"' :: ':' :: (member.text ++ after)) := by
  simp [spelled, quoteWith]

private theorem Member.length_text_lt (member : Member) :
    member.text.length < member.spelled.length := by
  simp only [spelled, List.length_append, List.length_cons]
  omega

/-- A text is one of the texts of a value. -/
inductive Spells : Value → List Char → Prop
  | scalar {value : Value} (isScalar : Scalar value) : Spells value (scalarText escapeChar value)
  | lead {value : Value} {space text : List Char} (blank : Space space)
      (spells : Spells value text) : Spells value (space ++ text)
  | arr {first : Item} {rest : List Item} {close : List Char} (blank : Space close)
      (each : ∀ item ∈ first :: rest, Spells item.value item.text) :
      Spells (.arr ((first :: rest).map (·.value)))
        ('[' :: (first.text ++ rest.flatMap (fun item => ',' :: item.text) ++ close ++ [']']))
  | obj {first : Member} {rest : List Member} {close : List Char} (blank : Space close)
      (blanks : ∀ member ∈ first :: rest, Space member.space)
      (distinct : ((first :: rest).map (·.key)).Nodup)
      (each : ∀ member ∈ first :: rest, Spells member.value member.text) :
      Spells (.obj ((first :: rest).map fun member => (member.key, member.value)))
        ('\x7b' :: (first.spelled ++ rest.flatMap (fun member => ',' :: member.spelled) ++ close ++
          ['\x7d']))

section Reading

variable {value : Value} {text close tail : List Char} {bound : Nat}

theorem skip_append {space : List Char} (blank : Space space) (rest : List Char) :
    skip (space ++ rest) = skip rest :=
  List.dropWhile_append_of_pos blank

theorem skip_cons {c : Char} (visible : isSpace c = false) (rest : List Char) :
    skip (c :: rest) = c :: rest :=
  List.dropWhile_cons_of_neg (by simp [visible])

/-- A text is read as a value, within more calls than it has characters. -/
def Reads (value : Value) (text : List Char) : Prop :=
  ∀ ⦃bound : Nat⦄ ⦃rest : List Char⦄, text.length < bound → Ends rest →
    readValue .free bound (skip (text ++ rest)) = .ok (value, rest)

/-- What does not start as a string, an array or an object is read as a word or a number. -/
theorem readValue_scalar {first : Char} (other : first ≠ '"' ∧ first ≠ '[' ∧ first ≠ '\x7b') :
    readValue .free (bound + 1) (first :: tail) = readScalar none (first :: tail) := by
  rw [readValue] <;> simp_all [Limits.free]

theorem Scalar.reads (isScalar : Scalar value) : Reads value (scalarText escapeChar value) := by
  intro bound rest enough ends
  obtain ⟨fewer, rfl⟩ := Nat.exists_eq_add_one.mpr (Nat.zero_lt_of_lt enough)
  cases isScalar with
  | null => rfl
  | bool b => cases b <;> rfl
  | int n =>
    have number := readScalar_intText n ends
    obtain ⟨first, tail, text, starts⟩ := exists_intText_cons n
    simp only [scalarText, text, List.cons_append] at number ⊢
    have visible : isSpace first = false := by
      rcases starts with rfl | isDigit
      · rfl
      · simp only [isSpace, Bool.or_eq_false_iff, beq_eq_false_iff_ne]
        refine ⟨⟨⟨?_, ?_⟩, ?_⟩, ?_⟩ <;> (rintro rfl; simp at isDigit)
    rw [skip_cons visible, readValue_scalar ?_, number]
    rcases starts with rfl | isDigit
    · decide
    · refine ⟨?_, ?_, ?_⟩ <;> (rintro rfl; simp at isDigit)
  | str s =>
    simp only [scalarText, quoteWith, List.cons_append, List.append_assoc, List.nil_append]
    rw [skip_cons (by decide), readValue, readString_quote]
    simp only [bind, Except.bind, ofPoints_chars]
    rfl
  | emptyArr => rfl
  | emptyObj => rfl

theorem Reads.lead {space : List Char} (reads : Reads value text) (blank : Space space) :
    Reads value (space ++ text) := by
  intro bound rest enough ends
  rw [List.length_append] at enough
  rw [List.append_assoc, skip_append blank]
  exact reads (by omega) ends

theorem ends_comma (rest : List Char) : Ends (',' :: rest) := by
  rintro c ⟨⟩
  decide

/-- White space before a closing bracket does not go on with a number. -/
theorem ends_close (blank : Space close) {bracket : Char}
    (closes : bracket = ']' ∨ bracket = '\x7d') (tail : List Char) :
    Ends (close ++ bracket :: tail) := by
  intro c first
  cases close with
  | nil =>
    cases first
    rcases closes with rfl | rfl <;> decide
  | cons c close =>
    cases first
    have space := blank c (List.mem_cons_self ..)
    simp only [isSpace, Bool.or_eq_true, beq_iff_eq] at space
    rcases space with ((rfl | rfl) | rfl) | rfl <;> decide

/-- No value starts with a closing bracket. -/
theorem Reads.skip_ne {rest : List Char} (reads : Reads value text) (ends : Ends rest)
    (other : List Char) : skip (text ++ rest) ≠ ']' :: other := by
  intro same
  -- a bracket would be refused as a number, but the text is read
  have read := reads (Nat.lt_succ_self _) ends
  rw [same, readValue_scalar (by decide)] at read
  nomatch read

section Items

variable {first : Item} {rest : List Item} {items : List Value}

/-- One item is read, and what follows decides whether there are more. -/
theorem readItems_item {item : Item} {after : List Char} (reads : Reads item.value item.text)
    (ends : Ends after) (enough : item.text.length + 1 < bound) :
    readItems .free bound items (skip (item.text ++ after)) =
      match skip after with
      | ']' :: tail => .ok (.arr (items.reverse ++ [item.value]), tail)
      | ',' :: tail => readItems .free (bound - 1) (item.value :: items) (skip tail)
      | other => refuse .comma other := by
  obtain ⟨fewer, rfl⟩ := Nat.exists_eq_add_one.mpr (Nat.zero_lt_of_lt enough)
  rw [readItems, reads (by omega) ends, Nat.add_sub_cancel, ← List.reverse_cons]
  rfl

/-- Items are read one after the other, up to the closing bracket. -/
theorem readItems_reads (blank : Space close)
    (each : ∀ item ∈ first :: rest, Reads item.value item.text)
    (enough : first.text.length + (rest.flatMap fun item => ',' :: item.text).length + 1 < bound) :
    readItems .free bound items (skip (first.text ++
        (rest.flatMap (fun item => ',' :: item.text) ++ (close ++ ']' :: tail)))) =
      .ok (.arr (items.reverse ++ (first :: rest).map (·.value)), tail) := by
  -- an item costs one call and has a comma before it, so the calls outlast the text
  induction rest generalizing first items bound with
  | nil =>
    rw [List.flatMap_nil, List.nil_append, readItems_item (each first (List.mem_cons_self ..))
      (ends_close blank (.inl rfl) tail) (by omega), skip_append blank, skip_cons (by decide)]
    rfl
  | cons second rest ih =>
    simp only [List.flatMap_cons, List.length_append, List.length_cons] at enough
    rw [List.flatMap_cons, List.append_assoc, List.cons_append,
      readItems_item (each first (List.mem_cons_self ..)) (ends_comma _) (by omega),
      skip_cons (by decide)]
    simp only
    rw [ih (fun item listed => each item (List.mem_cons_of_mem _ listed)) (by omega),
      List.reverse_cons, List.append_assoc]
    rfl

end Items

private theorem upsert_new {members : List (String × Value)} {key : String}
    (new : key ∉ members.map (·.1)) (value : Value) :
    upsert members key value = members ++ [(key, value)] := by
  induction members with
  | nil => rfl
  | cons member members ih =>
    rw [List.map_cons, List.mem_cons, not_or] at new
    rw [upsert, if_neg (Ne.symm new.1), ih new.2]
    rfl

section Members

variable {first : Member} {rest : List Member} {members : List (String × Value)}

/-- One member is read, and what follows decides whether there are more. -/
theorem readMembers_member {member : Member} {after : List Char} (blank : Space member.space)
    (reads : Reads member.value member.text) (new : member.key ∉ members.map (·.1))
    (ends : Ends after) (enough : member.spelled.length < bound) :
    readMembers .free bound false members (skip (member.spelled ++ after)) =
      match skip after with
      | '\x7d' :: tail => .ok (.obj (members ++ [(member.key, member.value)]), tail)
      | ',' :: tail =>
        readMembers .free (bound - 1) false (members ++ [(member.key, member.value)]) (skip tail)
      | other => refuse .comma other := by
  obtain ⟨fewer, rfl⟩ := Nat.exists_eq_add_one.mpr (Nat.zero_lt_of_lt enough)
  have short := member.length_text_lt
  have colon : isSpace ':' = false := rfl
  rw [Member.spelled_append, skip_append blank, skip_cons (by decide), readMembers,
    readString_quote]
  simp only [bind, Except.bind, skip_cons colon, isText_chars, mend_chars, upsert_new new,
    reads (show member.text.length < fewer by omega) ends]
  rfl

private theorem key_new (distinct : (members.map (·.1) ++ (first :: rest).map (·.key)).Nodup) :
    first.key ∉ members.map (·.1) := fun listed =>
  (List.nodup_append.mp distinct).2.2 _ listed _ (List.mem_cons_self ..) rfl

/-- Members with different keys are read one after the other, up to the closing brace. -/
theorem readMembers_reads (blank : Space close)
    (blanks : ∀ member ∈ first :: rest, Space member.space)
    (each : ∀ member ∈ first :: rest, Reads member.value member.text)
    (distinct : (members.map (·.1) ++ (first :: rest).map (·.key)).Nodup)
    (enough :
      first.spelled.length + (rest.flatMap fun member => ',' :: member.spelled).length < bound) :
    readMembers .free bound false members (skip (first.spelled ++
        (rest.flatMap (fun member => ',' :: member.spelled) ++ (close ++ '\x7d' :: tail)))) =
      .ok (.obj (members ++ (first :: rest).map fun member => (member.key, member.value)),
        tail) := by
  induction rest generalizing first members bound with
  | nil =>
    rw [List.flatMap_nil, List.nil_append, readMembers_member (blanks first (List.mem_cons_self ..))
      (each first (List.mem_cons_self ..)) (key_new distinct) (ends_close blank (.inr rfl) tail)
      (by omega), skip_append blank, skip_cons (by decide)]
    rfl
  | cons second rest ih =>
    simp only [List.flatMap_cons, List.length_append, List.length_cons] at enough
    have distinct' : ((members ++ [(first.key, first.value)]).map (·.1) ++
        (second :: rest).map (·.key)).Nodup := by
      simpa using distinct
    rw [List.flatMap_cons, List.append_assoc, List.cons_append,
      readMembers_member (blanks first (List.mem_cons_self ..)) (each first (List.mem_cons_self ..))
        (key_new distinct) (ends_comma _) (by omega),
      skip_cons (by decide)]
    simp only
    rw [ih (fun member listed => blanks member (List.mem_cons_of_mem _ listed))
      (fun member listed => each member (List.mem_cons_of_mem _ listed)) distinct' (by omega),
      List.append_assoc]
    rfl

end Members

private theorem readValue_arr (notEmpty : ∀ other, skip tail ≠ ']' :: other) :
    readValue .free (bound + 1) ('[' :: tail) = readItems .free bound [] (skip tail) := by
  rw [readValue]
  simp only [enter_free]

private theorem readValue_obj (notEmpty : ∀ other, skip tail ≠ '\x7d' :: other) :
    readValue .free (bound + 1) ('\x7b' :: tail) =
      readMembers .free bound false [] (skip tail) := by
  rw [readValue]
  simp only [enter_free]

private theorem ends_items (blank : Space close) (rest : List Item) (tail : List Char) :
    Ends (rest.flatMap (fun item => ',' :: item.text) ++ (close ++ ']' :: tail)) := by
  cases rest with
  | nil => exact ends_close blank (.inl rfl) tail
  | cons item rest => exact ends_comma _

/-- Every text of a value is read as the value. -/
theorem Spells.reads (spells : Spells value text) : Reads value text := by
  induction spells with
  | scalar isScalar => exact isScalar.reads
  | lead blank _ ih => exact ih.lead blank
  | @arr first rest close blank _ ih =>
    intro bound after enough _
    obtain ⟨fewer, rfl⟩ := Nat.exists_eq_add_one.mpr (Nat.zero_lt_of_lt enough)
    simp only [List.length_cons, List.length_append] at enough
    simp only [List.cons_append, List.append_assoc, List.nil_append]
    have notEmpty := (ih first (List.mem_cons_self ..)).skip_ne (ends_items blank rest after)
    rw [skip_cons (by decide), readValue_arr notEmpty, readItems_reads blank ih (by omega)]
    rfl
  | @obj first rest close blank blanks distinct _ ih =>
    intro bound after enough _
    obtain ⟨fewer, rfl⟩ := Nat.exists_eq_add_one.mpr (Nat.zero_lt_of_lt enough)
    simp only [List.length_cons, List.length_append] at enough
    simp only [List.cons_append, List.append_assoc, List.nil_append]
    -- a member starts with the quote before its key
    have notEmpty (tail other : List Char) : skip (first.spelled ++ tail) ≠ '\x7d' :: other := by
      rw [Member.spelled_append, skip_append (blanks first (List.mem_cons_self ..)),
        skip_cons (by decide)]
      simp
    have distinct' :
        (([] : List (String × Value)).map (·.1) ++ (first :: rest).map (·.key)).Nodup := distinct
    rw [skip_cons (by decide), readValue_obj (notEmpty _),
      readMembers_reads blank blanks ih distinct' (by omega)]
    rfl

end Reading

/-- No text of a value starts with a byte order mark. -/
theorem Spells.unmarked {value : Value} {text : List Char} (spells : Spells value text) :
    text.head? ≠ some '\ufeff' := by
  induction spells with
  | scalar isScalar =>
    cases isScalar with
    | bool b => cases b <;> decide
    | int n =>
      obtain ⟨first, tail, text, starts⟩ := exists_intText_cons n
      rw [scalarText, text, List.head?_cons]
      rintro ⟨⟩
      simp at starts
    | _ => simp [scalarText, quoteWith]
  | @lead value space text blank _ ih =>
    cases space with
    | nil => exact ih
    | cons c space =>
      rintro ⟨⟩
      exact absurd (blank _ (List.mem_cons_self ..)) (by decide)
  | arr => simp
  | obj => simp

/-- A text of a value is read as the value. -/
theorem Spells.parse {value : Value} {text : List Char} (spells : Spells value text) :
    parse (String.ofList text) = .ok value := by
  have read : readValue .free (2 * text.length + 2) (skip (text ++ [])) = .ok (value, []) :=
    spells.reads (by omega) nofun
  rw [List.append_nil] at read
  rw [Json.parse, parseLimited, String.toList_ofList, readText]
  · simp only [read, bind, Except.bind]
    rfl
  · rintro tail rfl
    exact spells.unmarked rfl

section Printing

/-- Values whose texts are read back: no floating-point numbers, no torn strings, and in every
object different keys. -/
inductive Plain : Value → Prop
  | scalar {value : Value} (isScalar : Scalar value) : Plain value
  | arr {items : List Value} (each : ∀ item ∈ items, Plain item) : Plain (.arr items)
  | obj {members : List (String × Value)} (distinct : (members.map (·.1)).Nodup)
      (each : ∀ member ∈ members, Plain member.2) : Plain (.obj members)

theorem Plain.str (s : String) : Plain (.str s) := .scalar (.str s)

theorem Plain.bool (b : Bool) : Plain (.bool b) := .scalar (.bool b)

theorem Plain.map {α : Type} {encode : α → Value} {parts : List α}
    (each : ∀ a ∈ parts, Plain (encode a)) : Plain (.arr (parts.map encode)) :=
  .arr (List.forall_mem_map.mpr each)

theorem space_newLine (depth : Nat) : Space (newLine depth) := by
  intro c listed
  simp only [newLine, List.mem_cons, List.mem_replicate] at listed
  rcases listed with rfl | ⟨_, rfl⟩ <;> rfl

section Items

variable (write : Value → List Char) {space close : List Char}

def Item.written (value : Value) : Item := ⟨value, write value⟩

/-- A member whose value is written in a given way. -/
def Member.written (space : List Char) (member : String × Value) : Member :=
  ⟨member.1, member.2, space, write member.2⟩

/-- A text of an array whose items are all written in the same way. -/
theorem Spells.arr_written {first : Value} {rest : List Value} (blank : Space close)
    (each : ∀ item ∈ first :: rest, Spells item (write item)) :
    Spells (.arr (first :: rest))
      ('[' :: (write first ++ rest.flatMap (fun item => ',' :: write item) ++ close ++ [']'])) := by
  have spelled : ∀ item ∈ (first :: rest).map (Item.written write),
      Spells item.value item.text := by
    rw [List.forall_mem_map]
    exact each
  simpa [List.flatMap_map, Function.comp_def, Item.written] using Spells.arr blank spelled

/-- A text of an object whose members are all written in the same way. -/
theorem Spells.obj_written {first : String × Value} {rest : List (String × Value)}
    (blank : Space close) (lead : Space space) (distinct : ((first :: rest).map (·.1)).Nodup)
    (each : ∀ member ∈ first :: rest, Spells member.2 (write member.2)) :
    Spells (.obj (first :: rest))
      ('\x7b' :: ((Member.written write space first).spelled ++
        rest.flatMap (fun member => ',' :: (Member.written write space member).spelled) ++ close ++
          ['\x7d'])) := by
  have blanks : ∀ member ∈ (first :: rest).map (Member.written write space),
      Space member.space := by
    rw [List.forall_mem_map]
    exact fun _ _ => lead
  have spelled : ∀ member ∈ (first :: rest).map (Member.written write space),
      Spells member.value member.text := by
    rw [List.forall_mem_map]
    exact each
  have keys : (((first :: rest).map (Member.written write space)).map (·.key)).Nodup := by
    rw [List.map_map]
    exact distinct
  simpa [List.flatMap_map, Function.comp_def, Member.written]
    using Spells.obj blank blanks keys spelled

end Items

section Indented

variable {depth : Nat}

private theorem indentedItems_eq (items : List Value) :
    indentedItems escapeChar depth items =
      items.flatMap (fun item => ',' :: (newLine (depth + 1) ++
        indentedChars escapeChar (depth + 1) item)) ++ newLine depth ++ [']'] := by
  induction items with
  | nil => rfl
  | cons item items ih => simp [indentedItems, ih]

private theorem indentedMembers_eq (members : List (String × Value)) :
    indentedMembers escapeChar depth members =
      members.flatMap (fun member => ',' :: (Member.written
        (fun value => [' '] ++ indentedChars escapeChar (depth + 1) value) (newLine (depth + 1))
          member).spelled) ++ newLine depth ++ ['\x7d'] := by
  induction members with
  | nil => rfl
  | cons member members ih => simp [indentedMembers, Member.written, Member.spelled, ih]

theorem Scalar.indented {value : Value} (isScalar : Scalar value) :
    indentedChars escapeChar depth value = scalarText escapeChar value := by
  cases isScalar <;> rfl

/-- The indented text of a plain value is one of its texts. -/
theorem Plain.spells_indented {value : Value} (plain : Plain value) (depth : Nat) :
    Spells value (indentedChars escapeChar depth value) := by
  induction plain generalizing depth with
  | scalar isScalar =>
    rw [isScalar.indented]
    exact .scalar isScalar
  | @arr items _ ih =>
    cases items with
    | nil => exact .scalar .emptyArr
    | cons first rest =>
      have spells := Spells.arr_written
        (fun item => newLine (depth + 1) ++ indentedChars escapeChar (depth + 1) item)
        (space_newLine depth)
        fun item listed => .lead (space_newLine _) (ih item listed (depth + 1))
      simpa [indentedChars, indentedItems_eq] using spells
  | @obj members distinct _ ih =>
    cases members with
    | nil => exact .scalar .emptyObj
    | cons first rest =>
      have spells := Spells.obj_written
        (fun value => [' '] ++ indentedChars escapeChar (depth + 1) value)
        (space_newLine depth) (space_newLine (depth + 1)) distinct
        fun member listed =>
          .lead (List.forall_mem_singleton.mpr rfl) (ih member listed (depth + 1))
      simpa [indentedChars, indentedMembers_eq, Member.written, Member.spelled] using spells

end Indented

/-- The indented text of a plain value is read back as the value, its members in their order. -/
theorem parse_pretty {value : Value} (plain : Plain value) : parse (pretty value) = .ok value :=
  (plain.spells_indented 0).parse

end Printing

end Wiring.Json
