import Mathlib.Data.List.Forall2
import Mathlib.Data.List.Nodup
import Mathlib.Data.String.Basic
import Wiring.Proofs.Json.Spelling

/-! # The canonical text of a value

Two values are alike if they differ in nothing but the order of members, at any depth. Sorting the
members of every object by their keys picks one value among those that are alike, and the compact
text of that value can be read back. So the canonical text is the same for values that are alike,
and it is different for all others.
-/

namespace Wiring.Json

/-- Values that are equal up to the order of members in every object. -/
inductive Alike : Value → Value → Prop
  | scalar {value : Value} (isScalar : Scalar value) : Alike value value
  | arr {first second : List Value} (long : first.length = second.length)
      (each : ∀ pair ∈ first.zip second, Alike pair.1 pair.2) : Alike (.arr first) (.arr second)
  | obj {first second : List (String × Value)}
      (keys : (first.map (·.1)).Perm (second.map (·.1)))
      (each : ∀ member ∈ first, ∀ other ∈ second, member.1 = other.1 → Alike member.2 other.2) :
      Alike (.obj first) (.obj second)

/-- A key comes before another one in the order of code points. -/
def KeyBefore (first second : String) : Prop :=
  first.toList.map Char.toNat < second.toList.map Char.toNat

instance : DecidableRel KeyBefore := fun first second =>
  inferInstanceAs (Decidable (first.toList.map Char.toNat < second.toList.map Char.toNat))

/-- The members of every object stand in the order of their keys. -/
inductive KeysSorted : Value → Prop
  | scalar {value : Value} (isScalar : Scalar value) : KeysSorted value
  | arr {items : List Value} (each : ∀ item ∈ items, KeysSorted item) : KeysSorted (.arr items)
  | obj {members : List (String × Value)} (sorted : (members.map (·.1)).Pairwise KeyBefore)
      (each : ∀ member ∈ members, KeysSorted member.2) : KeysSorted (.obj members)

section Compact

private theorem compactItems_eq (items : List Value) :
    compactItems items = items.flatMap (fun item => ',' :: compactChars item) ++ [] ++ [']'] := by
  induction items with
  | nil => rfl
  | cons item items ih => simp [compactItems, ih]

private theorem compactMembers_eq (members : List (String × Value)) :
    compactMembers members =
      members.flatMap (fun member => ',' :: (Member.written compactChars [] member).spelled) ++
        [] ++ ['\x7d'] := by
  induction members with
  | nil => rfl
  | cons member members ih => simp [compactMembers, Member.written, Member.spelled, ih]

theorem Scalar.compact {value : Value} (isScalar : Scalar value) :
    compactChars value = scalarText escapeChar value := by
  cases isScalar <;> simp [compactChars]

/-- The compact text of a plain value is one of its texts. -/
theorem Plain.spells_compact {value : Value} (plain : Plain value) :
    Spells value (compactChars value) := by
  have nothing : Space [] := List.forall_mem_nil _
  induction plain with
  | scalar isScalar =>
    rw [isScalar.compact]
    exact .scalar isScalar
  | @arr items _ ih =>
    cases items with
    | nil => exact .scalar .emptyArr
    | cons first rest =>
      have spells := Spells.arr_written compactChars nothing ih
      simpa [compactChars, compactItems_eq] using spells
  | @obj members distinct _ ih =>
    cases members with
    | nil => exact .scalar .emptyObj
    | cons first rest =>
      have spells := Spells.obj_written compactChars nothing nothing distinct ih
      simpa [compactChars, compactMembers_eq, Member.written, Member.spelled] using spells

end Compact

section Order

variable {first second : String}

private theorem keyBefore_of_lt (less : first < second) : KeyBefore first second := by
  apply List.map_lt
  · exact fun _ _ smaller => smaller
  · exact String.lt_iff_toList_lt.mp less

private theorem le_of_keyBefore (before : KeyBefore first second) : first ≤ second := by
  by_contra more
  exact lt_asymm before (keyBefore_of_lt (String.not_le.mp more))

private theorem keyBefore_of_le_of_ne (le : first ≤ second) (ne : first ≠ second) :
    KeyBefore first second := by
  apply keyBefore_of_lt
  by_contra notLess
  exact ne (String.le_antisymm le (String.not_lt.mp notLess))

end Order

section Sorting

def sortMember (member : String × Value) : String × Value := (member.1, sortKeys member.2)

theorem sortKeys_arr (items : List Value) : sortKeys (.arr items) = .arr (items.map sortKeys) := by
  have each : sortItems items = items.map sortKeys := by
    induction items with
    | nil => simp [sortItems]
    | cons item items ih => simp [sortItems, ih]
  rw [sortKeys, each]

/-- Members in the order of their keys. -/
def byKey (members : List (String × Value)) : List (String × Value) :=
  members.mergeSort fun first second => first.1 ≤ second.1

theorem sortKeys_obj (members : List (String × Value)) :
    sortKeys (.obj members) = .obj (byKey (members.map sortMember)) := by
  have each : sortMembers members = members.map sortMember := by
    induction members with
    | nil => simp [sortMembers]
    | cons member members ih => simp [sortMembers, sortMember, ih]
  rw [sortKeys, each, byKey]

theorem sortKeys_scalar {value : Value} (isScalar : Scalar value) : sortKeys value = value := by
  cases isScalar <;> simp [sortKeys, sortItems, sortMembers]

theorem map_fst_sortMember (members : List (String × Value)) :
    (members.map sortMember).map (·.1) = members.map (·.1) := by
  rw [List.map_map]
  rfl

variable {members others : List (String × Value)}

theorem byKey_perm (members : List (String × Value)) : (byKey members).Perm members :=
  List.mergeSort_perm _ _

theorem byKey_pairwise (members : List (String × Value)) :
    (byKey members).Pairwise fun first second => first.1 ≤ second.1 := by
  have trans (a b c : String × Value) (ab : decide (a.1 ≤ b.1) = true)
      (bc : decide (b.1 ≤ c.1) = true) : decide (a.1 ≤ c.1) = true := by
    rw [decide_eq_true_eq] at ab bc ⊢
    exact String.le_trans ab bc
  have total (a b : String × Value) : (decide (a.1 ≤ b.1) || decide (b.1 ≤ a.1)) = true := by
    rw [Bool.or_eq_true, decide_eq_true_eq, decide_eq_true_eq]
    exact String.le_total a.1 b.1
  exact (List.pairwise_mergeSort trans total members).imp fun before => of_decide_eq_true before

theorem nodup_byKey (distinct : (members.map (·.1)).Nodup) : ((byKey members).map (·.1)).Nodup :=
  ((byKey_perm members).map _).nodup_iff.mpr distinct

/-- Different keys are sorted strictly. -/
theorem byKey_keyBefore (distinct : (members.map (·.1)).Nodup) :
    ((byKey members).map (·.1)).Pairwise KeyBefore := by
  have sorted := List.pairwise_map.mpr (byKey_pairwise members)
  exact (sorted.and (nodup_byKey distinct)).imp fun both => keyBefore_of_le_of_ne both.1 both.2

private theorem byKey_of_keyBefore (sorted : (members.map (·.1)).Pairwise KeyBefore) :
    byKey members = members := by
  apply List.mergeSort_of_pairwise
  exact (List.pairwise_map.mp sorted).imp fun before => by simpa using le_of_keyBefore before

/-- Members with different keys are sorted in one way only. -/
theorem byKey_eq_of_perm (distinct : (members.map (·.1)).Nodup) (same : members.Perm others) :
    byKey members = byKey others := by
  have perm := ((byKey_perm members).trans same).trans (byKey_perm others).symm
  apply List.Perm.eq_of_pairwise ?_ (byKey_pairwise members) (byKey_pairwise others) perm
  intro first second listed there le ge
  exact List.inj_on_of_nodup_map (nodup_byKey distinct) listed (perm.mem_iff.mpr there)
    (String.le_antisymm le ge)

end Sorting

section Likeness

variable {first second : Value}

theorem Plain.items {items : List Value} (plain : Plain (.arr items)) :
    ∀ item ∈ items, Plain item := by
  cases plain with
  | scalar isScalar =>
    cases isScalar
    exact List.forall_mem_nil _
  | arr each => exact each

theorem Plain.members {members : List (String × Value)} (plain : Plain (.obj members)) :
    (members.map (·.1)).Nodup ∧ ∀ member ∈ members, Plain member.2 := by
  cases plain with
  | scalar isScalar =>
    cases isScalar
    exact ⟨List.nodup_nil, List.forall_mem_nil _⟩
  | obj distinct each => exact ⟨distinct, each⟩

/-- A value that is like a plain one is plain. -/
theorem Alike.plain (alike : Alike first second) (plain : Plain first) : Plain second := by
  induction alike with
  | scalar isScalar => exact .scalar isScalar
  | @arr items others long each ih =>
    have paired : (items.zip others).map (·.2) = others := List.map_snd_zip long.ge
    rw [← paired]
    apply Plain.arr
    rw [List.forall_mem_map]
    exact fun pair listed => ih pair listed (plain.items pair.1 (List.of_mem_zip listed).1)
  | @obj members others keys each ih =>
    obtain ⟨distinct, plains⟩ := plain.members
    apply Plain.obj (keys.nodup_iff.mp distinct)
    intro other there
    obtain ⟨member, listed, same⟩ := List.mem_map.mp (keys.mem_iff.mpr (List.mem_map_of_mem there))
    exact ih member listed other there same (plains member listed)

/-- Members of two objects with the same keys agree once they are sorted if those with the same key
do. -/
theorem map_sortMember_perm {members others : List (String × Value)}
    (distinct : (members.map (·.1)).Nodup) (keys : (members.map (·.1)).Perm (others.map (·.1)))
    (each : ∀ member ∈ members, ∀ other ∈ others, member.1 = other.1 →
      sortKeys member.2 = sortKeys other.2) :
    (members.map sortMember).Perm (others.map sortMember) := by
  have distinct' : (others.map (·.1)).Nodup := keys.nodup_iff.mp distinct
  rw [← map_fst_sortMember] at distinct distinct'
  rw [List.perm_ext_iff_of_nodup distinct.of_map distinct'.of_map]
  intro item
  constructor
  · intro chosen
    obtain ⟨member, listed, rfl⟩ := List.mem_map.mp chosen
    obtain ⟨other, there, same⟩ := List.mem_map.mp (keys.mem_iff.mp (List.mem_map_of_mem listed))
    refine List.mem_map.mpr ⟨other, there, ?_⟩
    rw [sortMember, sortMember, same, each member listed other there same.symm]
  · intro chosen
    obtain ⟨other, there, rfl⟩ := List.mem_map.mp chosen
    obtain ⟨member, listed, same⟩ := List.mem_map.mp (keys.mem_iff.mpr (List.mem_map_of_mem there))
    refine List.mem_map.mpr ⟨member, listed, ?_⟩
    rw [sortMember, sortMember, same, each member listed other there same]

private theorem map_sortKeys_eq_iff {items others : List Value} :
    items.map sortKeys = others.map sortKeys ↔
      items.length = others.length ∧
        ∀ pair ∈ items.zip others, sortKeys pair.1 = sortKeys pair.2 := by
  rw [← List.forall₂_eq_eq_eq, List.forall₂_map_left_iff, List.forall₂_map_right_iff,
    List.forall₂_iff_zip]
  simp only [Prod.forall]

/-- Values that are alike have the same sorted form. -/
theorem Alike.sortKeys_eq (alike : Alike first second) (plain : Plain first) :
    sortKeys first = sortKeys second := by
  induction alike with
  | scalar isScalar => rfl
  | @arr items others long each ih =>
    rw [sortKeys_arr, sortKeys_arr, Value.arr.injEq, map_sortKeys_eq_iff]
    refine ⟨long, fun pair listed => ?_⟩
    exact ih pair listed (plain.items pair.1 (List.of_mem_zip listed).1)
  | @obj members others keys each ih =>
    obtain ⟨distinct, plains⟩ := plain.members
    have perm := map_sortMember_perm distinct keys fun member listed other there same =>
      ih member listed other there same (plains member listed)
    rw [← map_fst_sortMember] at distinct
    rw [sortKeys_obj, sortKeys_obj, byKey_eq_of_perm distinct perm]

private theorem sortKeys_plain (plain : Plain first) : Plain (sortKeys first) := by
  induction plain with
  | scalar isScalar =>
    rw [sortKeys_scalar isScalar]
    exact .scalar isScalar
  | arr _ ih =>
    rw [sortKeys_arr]
    exact .map ih
  | @obj members distinct _ ih =>
    rw [← map_fst_sortMember] at distinct
    rw [sortKeys_obj]
    apply Plain.obj (nodup_byKey distinct)
    intro member listed
    obtain ⟨member, there, rfl⟩ := List.mem_map.mp ((byKey_perm _).mem_iff.mp listed)
    exact ih member there

private theorem sortKeys_keysSorted (plain : Plain first) : KeysSorted (sortKeys first) := by
  induction plain with
  | scalar isScalar =>
    rw [sortKeys_scalar isScalar]
    exact .scalar isScalar
  | arr _ ih =>
    rw [sortKeys_arr]
    exact .arr (List.forall_mem_map.mpr ih)
  | @obj members distinct _ ih =>
    rw [← map_fst_sortMember] at distinct
    rw [sortKeys_obj]
    apply KeysSorted.obj (byKey_keyBefore distinct)
    intro member listed
    obtain ⟨member, there, rfl⟩ := List.mem_map.mp ((byKey_perm _).mem_iff.mp listed)
    exact ih member there

/-- What is sorted stays as it is. -/
theorem KeysSorted.sortKeys_eq (sorted : KeysSorted first) : sortKeys first = first := by
  induction sorted with
  | scalar isScalar => exact sortKeys_scalar isScalar
  | @arr items _ ih => rw [sortKeys_arr, List.map_congr_left ih, List.map_id']
  | @obj members sorted _ ih =>
    have same : members.map sortMember = members := by
      calc
        members.map sortMember = members.map id :=
          List.map_congr_left fun member listed => Prod.ext rfl (ih member listed)
        _ = members := List.map_id members
    rw [sortKeys_obj, same, byKey_of_keyBefore sorted]

/-- The sorted form of a scalar is that of no other plain value. -/
theorem Scalar.eq_of_sortKeys_eq (isScalar : Scalar first) (plain : Plain second)
    (same : sortKeys first = sortKeys second) : first = second := by
  rw [sortKeys_scalar isScalar] at same
  cases plain with
  | scalar other => rw [same, sortKeys_scalar other]
  | arr each =>
    rw [sortKeys_arr] at same
    cases isScalar <;> simp at same
    rw [same]
  | @obj members distinct each =>
    rw [sortKeys_obj] at same
    cases isScalar <;> simp at same
    have none := byKey_perm (members.map sortMember)
    rw [same, List.nil_perm, List.map_eq_nil_iff] at none
    rw [none]

/-- Plain values with the same sorted form are alike. -/
theorem alike_of_sortKeys_eq (plain : Plain first) (plain' : Plain second)
    (same : sortKeys first = sortKeys second) : Alike first second := by
  induction plain generalizing second with
  | scalar isScalar =>
    obtain rfl := isScalar.eq_of_sortKeys_eq plain' same
    exact .scalar isScalar
  | @arr items each ih =>
    cases plain' with
    | scalar isScalar =>
      obtain rfl := isScalar.eq_of_sortKeys_eq (.arr each) same.symm
      exact .scalar isScalar
    | @arr others each' =>
      rw [sortKeys_arr, sortKeys_arr, Value.arr.injEq, map_sortKeys_eq_iff] at same
      apply Alike.arr same.1
      intro pair listed
      obtain ⟨here, there⟩ := List.of_mem_zip listed
      exact ih pair.1 here (each' pair.2 there) (same.2 pair listed)
    | obj distinct each' => simp [sortKeys_arr, sortKeys_obj] at same
  | @obj members distinct each ih =>
    cases plain' with
    | scalar isScalar =>
      obtain rfl := isScalar.eq_of_sortKeys_eq (.obj distinct each) same.symm
      exact .scalar isScalar
    | arr each' => simp [sortKeys_arr, sortKeys_obj] at same
    | @obj others distinct' each' =>
      rw [sortKeys_obj, sortKeys_obj, Value.obj.injEq] at same
      have perm : (members.map sortMember).Perm (others.map sortMember) := by
        calc
          (members.map sortMember).Perm (byKey (members.map sortMember)) := (byKey_perm _).symm
          _ = byKey (others.map sortMember) := same
          List.Perm _ (others.map sortMember) := byKey_perm _
      refine .obj ?_ fun member listed other there key => ?_
      · have keys := perm.map (·.1)
        rwa [map_fst_sortMember, map_fst_sortMember] at keys
      · -- the sorted member is among the others, where only one has its key
        obtain ⟨twin, found, equal⟩ :=
          List.mem_map.mp (perm.mem_iff.mp (List.mem_map_of_mem listed))
        obtain ⟨keyEq, valueEq⟩ := Prod.mk.inj equal
        obtain rfl := List.inj_on_of_nodup_map distinct' found there (keyEq.trans key)
        exact ih member listed (each' twin found) valueEq.symm

end Likeness

/-- Two plain values have the same canonical text exactly if they are alike. The indented text of a
plain value is read back as the value, its members in their order, and its canonical text is read
back as the value that is like it and has the members of every object sorted by the code points of
their keys. -/
theorem canonical_eq_iff (first second : Value) (plain : Plain first) (plain' : Plain second) :
    (canonical first = canonical second ↔ Alike first second) ∧
    parse (pretty first) = .ok first ∧
    ∀ value, parse (canonical first) = .ok value ↔ Alike first value ∧ KeysSorted value := by
  have reads {value : Value} (plain : Plain value) :
      parse (canonical value) = .ok (sortKeys value) :=
    (sortKeys_plain plain).spells_compact.parse
  refine ⟨⟨fun same => ?_, fun alike => ?_⟩, parse_pretty plain, fun value => ⟨fun read => ?_, ?_⟩⟩
  · apply alike_of_sortKeys_eq plain plain'
    have read := reads plain
    rw [same, reads plain'] at read
    exact (Except.ok.inj read).symm
  · rw [canonical, canonical, alike.sortKeys_eq plain]
  · obtain rfl := Except.ok.inj ((reads plain).symm.trans read)
    have sorted := sortKeys_keysSorted plain
    exact ⟨alike_of_sortKeys_eq plain (sortKeys_plain plain) sorted.sortKeys_eq.symm, sorted⟩
  · rintro ⟨alike, sorted⟩
    rw [reads plain, alike.sortKeys_eq plain, sorted.sortKeys_eq]

/-- An object with a key and a text that look like syntax, and with an object in it. -/
def shuffled : Value :=
  .obj [("a\",", .arr [.obj [("y", .null), ("x", .int (-1))], .arr []]), ("", .str "]\n")]

/-- The same with the members of both objects sorted. -/
def unshuffled : Value :=
  .obj [("", .str "]\n"), ("a\",", .arr [.obj [("x", .int (-1)), ("y", .null)], .arr []])]

theorem canonical_eq_iff_shuffled :
    Plain shuffled ∧ Plain unshuffled ∧ Alike shuffled unshuffled ∧
    canonical shuffled = canonical unshuffled ∧ parse (pretty shuffled) = .ok shuffled ∧
    KeysSorted unshuffled ∧ parse (canonical shuffled) = .ok unshuffled := by
  have inner : Plain (.obj [("y", .null), ("x", .int (-1))]) :=
    .obj (by decide) (List.forall_mem_cons.mpr
      ⟨.scalar .null, List.forall_mem_singleton.mpr (.scalar (.int _))⟩)
  have plain : Plain shuffled := by
    refine .obj (by decide) (List.forall_mem_cons.mpr
      ⟨.arr (List.forall_mem_cons.mpr ⟨inner, ?_⟩), List.forall_mem_singleton.mpr (.str _)⟩)
    exact List.forall_mem_singleton.mpr (.scalar .emptyArr)
  have alike : Alike shuffled unshuffled := by
    have swapped : Alike (.obj [("y", .null), ("x", .int (-1))])
        (.obj [("x", .int (-1)), ("y", .null)]) :=
      .obj (List.Perm.swap ..) (by simpa using And.intro (Alike.scalar .null) (.scalar (.int _)))
    have items : Alike (.arr [.obj [("y", .null), ("x", .int (-1))], .arr []])
        (.arr [.obj [("x", .int (-1)), ("y", .null)], .arr []]) :=
      .arr rfl (by simpa using And.intro swapped (.scalar .emptyArr))
    exact .obj (List.Perm.swap ..) (by simpa using And.intro items (.scalar (.str _)))
  have sorted : KeysSorted unshuffled := by
    refine .obj (by decide) (List.forall_mem_cons.mpr ⟨.scalar (.str _), ?_⟩)
    refine List.forall_mem_singleton.mpr (.arr (List.forall_mem_cons.mpr ⟨?_, ?_⟩))
    · exact .obj (by decide) (List.forall_mem_cons.mpr
        ⟨.scalar (.int _), List.forall_mem_singleton.mpr (.scalar .null)⟩)
    · exact List.forall_mem_singleton.mpr (.scalar .emptyArr)
  obtain ⟨same, indented, read⟩ := canonical_eq_iff _ _ plain (alike.plain plain)
  exact ⟨plain, alike.plain plain, alike, same.mpr alike, indented, sorted,
    (read _).mpr ⟨alike, sorted⟩⟩

end Wiring.Json
