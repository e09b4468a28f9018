import Mathlib.Data.List.ReduceOption
import Mathlib.Tactic.SplitIfs
import Wiring.Facts.Resolution

/-! # Flags are joined field by field

The values of a flag are ordered: unset below false below true. Joining records takes the greatest
value of each flag, so all that is known of it is which values it bounds. From that alone it follows
that neither the order of the sources nor their number matters, and that a join of joins is one
join. The flags of a parameter are such a join, of what its decorators and its inject call say.
-/

namespace Wiring

/-- The four flags. -/
inductive Qualifier where
  | optional
  | self
  | skipSelf
  | host
deriving DecidableEq, Repr

def Qualifier.decorator : Qualifier → String
  | optional => "Optional"
  | self => "Self"
  | skipSelf => "SkipSelf"
  | host => "Host"

namespace Flags

def value (flags : Flags) : Qualifier → Option Bool
  | .optional => flags.optional
  | .self => flags.self
  | .skipSelf => flags.skipSelf
  | .host => flags.host

/-- The place of a value in the order: unset, false, true. -/
def rank : Option Bool → Nat
  | none => 0
  | some false => 1
  | some true => 2

/-- What a source says of a flag. A source that is absent leaves it unset. -/
def said (source : Option Flags) (qualifier : Qualifier) : Option Bool :=
  source.bind (·.value qualifier)

section Values

variable {a b : Option Bool}

private theorem rank_inj (same : rank a = rank b) : a = b := by
  rcases a with _ | _ | _ <;> rcases b with _ | _ | _ <;> simp [rank] at same ⊢

theorem eq_none_iff : a = none ↔ rank a ≤ 0 := by
  rcases a with _ | _ | _ <;> simp [rank]

theorem eq_false_iff : a = some false ↔ rank a ≤ 1 ∧ ¬rank a ≤ 0 := by
  rcases a with _ | _ | _ <;> simp [rank]

private theorem eq_true_iff : a = some true ↔ ¬rank a ≤ 1 := by
  rcases a with _ | _ | _ <;> simp [rank]

private theorem rank_join (a b : Option Bool) : rank (join a b) = max (rank a) (rank b) := by
  rcases a with _ | _ | _ <;> rcases b with _ | _ | _ <;> rfl

end Values

section Records

variable {first second flags : Flags} {qualifier : Qualifier} {bound : Nat}

private theorem eq_of_value (same : ∀ qualifier, first.value qualifier = second.value qualifier) :
    first = second := by
  obtain ⟨_, _, _, _⟩ := first
  obtain ⟨_, _, _, _⟩ := second
  exact (mk.injEq ..).mpr
    ⟨same .optional, same .self, same .skipSelf, same .host⟩

theorem value_merge (first second : Flags) (qualifier : Qualifier) :
    (first.merge second).value qualifier =
      join (first.value qualifier) (second.value qualifier) := by
  cases qualifier <;> rfl

theorem isEmpty_iff : flags.isEmpty = true ↔ ∀ qualifier, flags.value qualifier = none := by
  constructor
  · intro empty qualifier
    simp only [isEmpty, Bool.and_eq_true, Option.isNone_iff_eq_none] at empty
    obtain ⟨⟨⟨optional, self⟩, skipSelf⟩, host⟩ := empty
    cases qualifier
    · exact optional
    · exact self
    · exact skipSelf
    · exact host
  · intro none
    have unset : flags = .unset := eq_of_value fun qualifier => by
      rw [none]
      cases qualifier <;> rfl
    rw [unset]
    rfl

/-- A join is bounded by what bounds all its parts. -/
theorem rank_foldl_merge_le_iff (first : Flags) (rest : List Flags) :
    rank ((rest.foldl merge first).value qualifier) ≤ bound ↔
      ∀ flags ∈ first :: rest, rank (flags.value qualifier) ≤ bound := by
  induction rest generalizing first with
  | nil => simp
  | cons second rest ih =>
    rw [List.foldl_cons, ih]
    simp only [List.forall_mem_cons, value_merge, rank_join, Nat.max_le, and_assoc]

end Records

section Sources

variable {sources others : List (Option Flags)} {qualifier : Qualifier} {bound : Nat}

theorem forall_said_iff :
    (∀ source ∈ sources, rank (said source qualifier) ≤ bound) ↔
      ∀ flags, some flags ∈ sources → rank (flags.value qualifier) ≤ bound := by
  constructor
  · intro bounded flags listed
    exact bounded (some flags) listed
  · intro bounded source listed
    cases source with
    | none => exact Nat.zero_le bound
    | some flags => exact bounded flags listed

/-- A record that asserts nothing says no more than an absent one. -/
theorem said_nonEmpty (flags : Flags) (qualifier : Qualifier) :
    said (if flags.isEmpty then none else some flags) qualifier = flags.value qualifier := by
  split
  · rename_i empty
    exact (isEmpty_iff.mp empty qualifier).symm
  · rfl

/-- What all sources say together is bounded by what bounds each of them. -/
theorem rank_said_mergeAll_le_iff :
    rank (said (mergeAll sources) qualifier) ≤ bound ↔
      ∀ source ∈ sources, rank (said source qualifier) ≤ bound := by
  have present (flags : Flags) : flags ∈ sources.filterMap id ↔ some flags ∈ sources :=
    List.reduceOption_mem_iff
  simp only [forall_said_iff, ← present, mergeAll]
  cases sources.filterMap id with
  | nil => simp [said, rank]
  | cons first rest =>
    simp only [said_nonEmpty]
    exact rank_foldl_merge_le_iff first rest

/-- The join of sources is absent rather than empty. -/
theorem not_isEmpty_of_mergeAll {merged : Flags} (joined : mergeAll sources = some merged) :
    merged.isEmpty = false := by
  simp only [mergeAll] at joined
  split at joined
  · simp at joined
  · split at joined
    · simp at joined
    · rename_i nonEmpty
      obtain rfl := Option.some.inj joined
      exact Bool.eq_false_iff.mpr nonEmpty

theorem mergeAll_eq_none_iff :
    mergeAll sources = none ↔ ∀ qualifier, said (mergeAll sources) qualifier = none := by
  constructor
  · intro absent qualifier
    rw [absent]
    rfl
  · intro unset
    cases joined : mergeAll sources with
    | none => rfl
    | some merged =>
      rw [joined] at unset
      have empty := isEmpty_iff.mpr unset
      rw [not_isEmpty_of_mergeAll joined] at empty
      simp at empty

/-- Sources with the same bounds have the same join. -/
theorem mergeAll_congr
    (same : ∀ qualifier bound, (∀ source ∈ sources, rank (said source qualifier) ≤ bound) ↔
      ∀ source ∈ others, rank (said source qualifier) ≤ bound) :
    mergeAll sources = mergeAll others := by
  have agree (qualifier : Qualifier) :
      said (mergeAll sources) qualifier = said (mergeAll others) qualifier := by
    apply rank_inj
    apply Nat.le_antisymm
    · rw [rank_said_mergeAll_le_iff, same]
      exact rank_said_mergeAll_le_iff.mp (Nat.le_refl _)
    · rw [rank_said_mergeAll_le_iff, ← same]
      exact rank_said_mergeAll_le_iff.mp (Nat.le_refl _)
  cases first : mergeAll sources with
  | none =>
    refine (mergeAll_eq_none_iff.mpr fun qualifier => ?_).symm
    rw [← agree, first]
    rfl
  | some merged =>
    cases second : mergeAll others with
    | none =>
      have absent : mergeAll sources = none := mergeAll_eq_none_iff.mpr fun qualifier => by
        rw [agree, second]
        rfl
      simp [first] at absent
    | some others =>
      simp only [first, second] at agree
      exact congrArg some (eq_of_value agree)

/-- Joining sources is absent exactly if none of them asserts anything. -/
theorem mergeAll_absent_iff :
    mergeAll sources = none ↔
      ∀ flags, some flags ∈ sources → ∀ qualifier, flags.value qualifier = none := by
  simp only [mergeAll_eq_none_iff, eq_none_iff, rank_said_mergeAll_le_iff, forall_said_iff]
  exact ⟨fun unset flags listed qualifier => unset qualifier flags listed,
    fun unset qualifier flags listed => unset flags listed qualifier⟩

/-- A value is the greatest that the sources that are there give to a flag. -/
structure IsStrongest (sources : List (Option Flags)) (qualifier : Qualifier)
    (greatest : Option Bool) : Prop where
  attained : ∃ flags, some flags ∈ sources ∧ flags.value qualifier = greatest
  bound : ∀ flags, some flags ∈ sources → rank (flags.value qualifier) ≤ rank greatest

theorem mergeAll_isStrongest {merged : Flags} (joined : mergeAll sources = some merged)
    (qualifier : Qualifier) : IsStrongest sources qualifier (merged.value qualifier) := by
  have bounds (bound : Nat) : rank (merged.value qualifier) ≤ bound ↔
      ∀ flags, some flags ∈ sources → rank (flags.value qualifier) ≤ bound := by
    rw [← forall_said_iff, ← rank_said_mergeAll_le_iff, joined]
    rfl
  have bounded := (bounds (rank (merged.value qualifier))).mp (Nat.le_refl _)
  refine ⟨?_, bounded⟩
  by_contra missed
  -- otherwise every source stays below, and so does the join, unless nothing is below
  have below (flags : Flags) (listed : some flags ∈ sources) :
      rank (flags.value qualifier) < rank (merged.value qualifier) := by
    apply Nat.lt_of_le_of_ne (bounded flags listed)
    intro same
    exact missed ⟨flags, listed, rank_inj same⟩
  have lower := (bounds (rank (merged.value qualifier) - 1)).mpr fun flags listed => by
    have := below flags listed
    omega
  have none_there : ∀ flags, some flags ∉ sources := fun flags listed => by
    have := below flags listed
    omega
  have absent : mergeAll sources = none :=
    mergeAll_absent_iff.mpr fun flags listed => absurd listed (none_there flags)
  simp [joined] at absent

/-- Only which records are there matters, not their order, how often they occur, or what is
absent. -/
theorem mergeAll_eq_of_mem_iff
    (same : ∀ flags, some flags ∈ sources ↔ some flags ∈ others) :
    mergeAll sources = mergeAll others := by
  apply mergeAll_congr
  intro qualifier bound
  simp only [forall_said_iff, same]

/-- Joining parts and then what comes out is joining everything. -/
theorem mergeAll_flatten (parts : List (List (Option Flags))) :
    mergeAll (parts.map mergeAll) = mergeAll parts.flatten := by
  apply mergeAll_congr
  intro qualifier bound
  simp only [List.forall_mem_map, rank_said_mergeAll_le_iff, List.forall_mem_flatten]

end Sources

end Flags

namespace Facts

open Flags (said rank mergeAll IsStrongest)

/-- Whether a parameter has the decorator that asserts a flag. -/
def Parameter.Asserts (parameter : Parameter) (qualifier : Qualifier) : Prop :=
  ∃ decorator ∈ parameter.decorators, decorator.name = qualifier.decorator

/-- The value of a flag among the options of the inject call. -/
def Parameter.option (parameter : Parameter) (qualifier : Qualifier) : Option Bool :=
  (parameter.injectCall.bind (·.options)).bind (·.value qualifier)

/-- A decorator asserts the flag that it is named for, and no other. -/
theorem said_qualifier? (name : String) (qualifier : Qualifier) :
    said (qualifier? name) qualifier =
      if name = qualifier.decorator then some true else none := by
  simp only [qualifier?, apply_ite (said · qualifier)]
  cases qualifier <;>
    simp only [said, Option.bind_some, Option.bind_none, Flags.value, Flags.unset,
      Qualifier.decorator] <;>
    split_ifs <;> simp_all

namespace Parameter

variable (parameter : Parameter) (qualifier : Qualifier) {bound : Nat}

private theorem rank_said_decoratorFlags_le_iff :
    rank (said parameter.decoratorFlags qualifier) ≤ bound ↔
      ∀ decorator ∈ parameter.decorators,
        rank (said (qualifier? decorator.name) qualifier) ≤ bound := by
  have asserted : rank (said parameter.decoratorFlags qualifier) ≤ bound ↔
      ∀ flags ∈ parameter.decorators.filterMap fun decorator => qualifier? decorator.name,
        rank (flags.value qualifier) ≤ bound := by
    unfold decoratorFlags
    split
    · rename_i nothing
      simp [nothing, said, rank]
    · have least : rank (Flags.unset.value qualifier) ≤ bound := by
        cases qualifier <;> exact Nat.zero_le bound
      exact (Flags.rank_foldl_merge_le_iff _ _).trans
        (List.forall_mem_cons.trans (and_iff_right least))
  rw [asserted]
  constructor
  · intro bounded decorator listed
    cases found : qualifier? decorator.name with
    | none => exact Nat.zero_le bound
    | some flags => exact bounded flags (List.mem_filterMap.mpr ⟨decorator, listed, found⟩)
  · intro bounded flags listed
    obtain ⟨decorator, listed, found⟩ := List.mem_filterMap.mp listed
    have bounded := bounded decorator listed
    rw [found] at bounded
    exact bounded

private theorem said_callFlags :
    said parameter.callFlags qualifier = parameter.option qualifier := by
  unfold callFlags option
  cases parameter.injectCall with
  | none => rfl
  | some call =>
    obtain ⟨token, options⟩ := call
    cases options with
    | none => rfl
    | some options => exact Flags.said_nonEmpty options qualifier

/-- What is said of a flag comes from a decorator that is named for it, which says true, and from
the options of the inject call. -/
theorem rank_said_flags_le_iff :
    rank (said parameter.flags qualifier) ≤ bound ↔
      (parameter.Asserts qualifier → 2 ≤ bound) ∧ rank (parameter.option qualifier) ≤ bound := by
  rw [flags, Flags.rank_said_mergeAll_le_iff, List.forall_mem_cons, List.forall_mem_singleton,
    said_callFlags, rank_said_decoratorFlags_le_iff]
  refine and_congr_left fun _ => ?_
  constructor
  · rintro bounded ⟨decorator, listed, own⟩
    have high := bounded decorator listed
    rwa [said_qualifier?, if_pos own] at high
  · intro bounded decorator listed
    rw [said_qualifier?]
    split
    · rename_i own
      exact bounded ⟨decorator, listed, own⟩
    · exact Nat.zero_le bound

private theorem said_flags_true_iff :
    said parameter.flags qualifier = some true ↔
      parameter.Asserts qualifier ∨ parameter.option qualifier = some true := by
  rw [Flags.eq_true_iff, rank_said_flags_le_iff, Flags.eq_true_iff]
  by_cases asserted : parameter.Asserts qualifier <;> simp [asserted]

private theorem said_flags_false_iff :
    said parameter.flags qualifier = some false ↔
      ¬parameter.Asserts qualifier ∧ parameter.option qualifier = some false := by
  rw [Flags.eq_false_iff, rank_said_flags_le_iff, rank_said_flags_le_iff, Flags.eq_false_iff]
  by_cases asserted : parameter.Asserts qualifier <;> simp [asserted]

theorem flags_eq_none_iff :
    parameter.flags = none ↔
      ∀ qualifier, ¬parameter.Asserts qualifier ∧ parameter.option qualifier = none := by
  rw [flags, Flags.mergeAll_eq_none_iff, ← flags]
  refine forall_congr' fun qualifier => ?_
  rw [Flags.eq_none_iff, rank_said_flags_le_iff, Flags.eq_none_iff]
  by_cases asserted : parameter.Asserts qualifier <;> simp [asserted]

theorem flags_of_resolve {owner file : String} {dependency : Resolved.Dependency}
    (resolved : (parameter.resolve owner file).value = some dependency) :
    dependency.flags = parameter.flags := by
  unfold resolve at resolved
  cases found : parameter.token with
  | ok token =>
    rw [found] at resolved
    obtain rfl := Option.some.inj resolved
    rfl
  | error skip => simp [found] at resolved

end Parameter

/-- Flags are joined field by field. The join is absent if no source asserts anything; otherwise
each flag has the greatest value that a source gives it. It depends only on which records are among
the sources, and a join of joins is the join of everything. So a flag of a dependency is true if a
decorator is named for it or the inject call says so, false if there is no such decorator and the
call says that, and otherwise unset; if all are, the dependency has no flags. -/
theorem flags_joined (sources others : List (Option Flags)) (parts : List (List (Option Flags)))
    (owner file : String) (parameter : Parameter) :
    (mergeAll sources = none ↔
      ∀ flags, some flags ∈ sources → ∀ qualifier, flags.value qualifier = none) ∧
    (∀ merged, mergeAll sources = some merged →
      ∀ qualifier, IsStrongest sources qualifier (merged.value qualifier)) ∧
    ((∀ flags, some flags ∈ sources ↔ some flags ∈ others) →
      mergeAll sources = mergeAll others) ∧
    mergeAll (parts.map mergeAll) = mergeAll parts.flatten ∧
    ∀ dependency, (parameter.resolve owner file).value = some dependency →
      (∀ qualifier,
        (said dependency.flags qualifier = some true ↔
          parameter.Asserts qualifier ∨ parameter.option qualifier = some true) ∧
        (said dependency.flags qualifier = some false ↔
          ¬parameter.Asserts qualifier ∧ parameter.option qualifier = some false)) ∧
      (dependency.flags = none ↔
        ∀ qualifier, ¬parameter.Asserts qualifier ∧ parameter.option qualifier = none) := by
  refine ⟨Flags.mergeAll_absent_iff, fun _ => Flags.mergeAll_isStrongest,
    Flags.mergeAll_eq_of_mem_iff, Flags.mergeAll_flatten parts, fun dependency resolved => ?_⟩
  rw [parameter.flags_of_resolve resolved]
  exact ⟨fun qualifier => ⟨parameter.said_flags_true_iff qualifier,
    parameter.said_flags_false_iff qualifier⟩, parameter.flags_eq_none_iff⟩

/-- A parameter with the same qualifier twice, a decorator that means nothing here, and a call that
denies what a decorator asserts. -/
def contested : Parameter where
  name := "log"
  typeName := some "Log"
  typeResolved := true
  decorators := [⟨"Self", none⟩, ⟨"Input", none⟩, ⟨"Self", none⟩]
  injectCall := some ⟨none, some ⟨some false, some false, none, none⟩⟩
  location := none

theorem flags_joined_contested :
    let denied : Flags := ⟨some false, none, none, none⟩
    let asserted : Flags := ⟨some true, some false, none, none⟩
    let dependency : Resolved.Dependency :=
      ⟨"Log", "log", some ⟨some false, some true, none, none⟩⟩
    mergeAll [none, some denied, some asserted] = some asserted ∧
    IsStrongest [none, some denied, some asserted] .optional (some true) ∧
    mergeAll [none, some denied, some asserted] =
      mergeAll [some asserted, some denied, some asserted] ∧
    (contested.resolve "Users" "app.ts").value = some dependency ∧
    (said dependency.flags .self = some true ↔
      contested.Asserts .self ∨ contested.option .self = some true) ∧
    (said dependency.flags .optional = some false ↔
      ¬contested.Asserts .optional ∧ contested.option .optional = some false) := by
  intro denied asserted dependency
  have joined : mergeAll [none, some denied, some asserted] = some asserted := rfl
  have same (flags : Flags) : some flags ∈ [none, some denied, some asserted] ↔
      some flags ∈ [some asserted, some denied, some asserted] := by
    simp +contextual [or_comm]
  have resolved : (contested.resolve "Users" "app.ts").value = some dependency := rfl
  obtain ⟨_, strongest, unchanged, _, flags⟩ := flags_joined [none, some denied, some asserted]
    [some asserted, some denied, some asserted] [] "Users" "app.ts" contested
  obtain ⟨values, _⟩ := flags dependency resolved
  exact ⟨joined, strongest asserted joined .optional, unchanged same, resolved, (values .self).1,
    (values .optional).2⟩

end Facts

end Wiring
