import Wiring.Proofs.History
import Wiring.Proofs.Precedence
import Wiring.Proofs.Qualifiers

/-! # Statistics that balance

Resolving counts parameters, decorators and flags before it is known whether a parameter gives a
dependency. Whatever calls of the resolver a store has seen since it was last reset, its statistics
agree with what can be counted from outside: the parameters that were resolved, the dependencies
that came back, the decorators on the parameters and their flags. The counts of one parameter agree,
adding counts keeps the agreement, and each call adds the counts of the parameters it resolves.
-/

namespace Wiring

theorem Note.counted_append (first second : List Note) :
    counted (first ++ second) = (counted first).add (counted second) := by
  induction first with
  | nil => exact (Tally.zero_add _).symm
  | cons note rest ih => rw [List.cons_append, counted_cons, counted_cons, ih, Tally.add_assoc]

def FlagCounts.count (counts : FlagCounts) : Qualifier → Nat
  | .optional => counts.optional
  | .self => counts.self
  | .skipSelf => counts.skipSelf
  | .host => counts.host

private theorem FlagCounts.count_zero (qualifier : Qualifier) :
    FlagCounts.zero.count qualifier = 0 := by
  cases qualifier <;> rfl

theorem FlagCounts.count_add (first second : FlagCounts) (qualifier : Qualifier) :
    (first.add second).count qualifier = first.count qualifier + second.count qualifier := by
  cases qualifier <;> rfl

private theorem FlagCounts.count_ofFlags (flags : Flags) (qualifier : Qualifier) :
    (ofFlags flags).count qualifier = if flags.value qualifier = some true then 1 else 0 := by
  cases qualifier <;> rfl

namespace Facts

open Flags (said)

/-- The names of the decorators that mean something to the resolver. -/
def recognizedNames : List String := ["Inject", "Optional", "Self", "SkipSelf", "Host"]

private theorem isSome_qualifier?_iff {name : String} :
    (qualifier? name).isSome = true ↔ ∃ qualifier : Qualifier, name = qualifier.decorator := by
  constructor
  · intro found
    unfold qualifier? at found
    split_ifs at found with optional self skipSelf host
    · exact ⟨.optional, optional⟩
    · exact ⟨.self, self⟩
    · exact ⟨.skipSelf, skipSelf⟩
    · exact ⟨.host, host⟩
    · simp at found
  · rintro ⟨qualifier, rfl⟩
    cases qualifier <;> rfl

private theorem isRecognized_iff {name : String} :
    isRecognized name = true ↔ name ∈ recognizedNames := by
  have qualifiers : (∃ qualifier : Qualifier, name = qualifier.decorator) ↔
      name = "Optional" ∨ name = "Self" ∨ name = "SkipSelf" ∨ name = "Host" := by
    constructor
    · rintro ⟨qualifier, rfl⟩
      cases qualifier <;> simp [Qualifier.decorator]
    · rintro (rfl | rfl | rfl | rfl)
      · exact ⟨.optional, rfl⟩
      · exact ⟨.self, rfl⟩
      · exact ⟨.skipSelf, rfl⟩
      · exact ⟨.host, rfl⟩
  rw [isRecognized, Bool.or_eq_true, isSome_qualifier?_iff, qualifiers, decide_eq_true_eq]
  simp [recognizedNames]

namespace Parameter

variable (parameter : Parameter)

def IsSkipped : Prop := ∀ token, ¬parameter.Provides token

instance : Decidable parameter.IsSkipped :=
  decidable_of_iff (∀ token ∈ parameter.token.toOption, False) <| by
    cases found : parameter.token with
    | ok token =>
      have provides := token_eq_ok_iff.mp found
      simp only [Except.toOption, Option.mem_some_iff, forall_eq', false_iff]
      exact fun skipped => skipped token provides
    | error skip =>
      refine iff_of_true (by simp [Except.toOption]) fun token provides => ?_
      simp [token_eq_ok_iff.mpr provides] at found

private theorem count_tally (qualifier : Qualifier) :
    parameter.tally.flags.count qualifier =
      if said parameter.flags qualifier = some true then 1 else 0 := by
  change ((parameter.flags.map FlagCounts.ofFlags).getD .zero).count qualifier = _
  cases parameter.flags with
  | none => exact FlagCounts.count_zero qualifier
  | some flags => exact FlagCounts.count_ofFlags flags qualifier

/-- A parameter with a qualifier among its decorators has flags. -/
theorem isSome_flags_of_qualifier {decorator : Decorator}
    (listed : decorator ∈ parameter.decorators)
    (qualifies : (qualifier? decorator.name).isSome = true) : parameter.flags.isSome = true := by
  obtain ⟨qualifier, named⟩ := isSome_qualifier?_iff.mp qualifies
  rw [← Option.ne_none_iff_isSome]
  intro none
  apply (parameter.flags_eq_none_iff.mp none qualifier).1
  exact ⟨decorator, listed, named⟩

/-- The parameters with flags are those that are counted as qualified. -/
theorem qualified_tally :
    parameter.tally.qualified = if parameter.flags.isSome = true then 1 else 0 := by
  have flagged : ((parameter.decorators.map (·.name)).any (fun name => (qualifier? name).isSome) ||
      parameter.flags.isSome) = parameter.flags.isSome := by
    rw [Bool.or_eq_right_iff_imp, List.any_eq_true]
    rintro ⟨name, listed, qualifies⟩
    obtain ⟨decorator, there, rfl⟩ := List.mem_map.mp listed
    exact parameter.isSome_flags_of_qualifier there qualifies
  simp only [tally, flagged]

private theorem ignored_tally :
    parameter.tally.ignored =
      (parameter.decorators.map (·.name)).filter (· ∉ recognizedNames) := by
  simp only [tally]
  apply List.filter_congr
  intro name _
  rw [Bool.eq_iff_iff, decide_eq_true_eq, ← isRecognized_iff]
  simp

end Parameter

/-- Statistics that agree with the parameters that they are about. -/
structure Balances (parameters : List Parameter) (tally : Tally) : Prop where
  total : tally.parameters = parameters.length
  halves : tally.qualified + tally.plain = tally.parameters
  qualified : tally.qualified = parameters.countP (·.flags.isSome)
  decorators : tally.decorators + tally.ignored.length = (parameters.flatMap (·.decorators)).length
  ignored : tally.ignored =
    ((parameters.flatMap (·.decorators)).map (·.name)).filter (· ∉ recognizedNames)
  injectCalls : tally.injectCalls = parameters.countP (·.injectCall.isSome)
  flags : ∀ qualifier, tally.flags.count qualifier =
    parameters.countP fun parameter => said parameter.flags qualifier = some true

namespace Balances

variable {first second : List Parameter} {tally other : Tally}

theorem zero : Balances [] .zero where
  total := rfl
  halves := rfl
  qualified := rfl
  decorators := rfl
  ignored := rfl
  injectCalls := rfl
  flags := FlagCounts.count_zero

/-- Agreement is kept when statistics are added up. -/
theorem add (balances : Balances first tally) (others : Balances second other) :
    Balances (first ++ second) (tally.add other) where
  total := by
    have := balances.total
    have := others.total
    simp only [Tally.add, List.length_append]
    omega
  halves := by
    have := balances.halves
    have := others.halves
    simp only [Tally.add]
    omega
  qualified := by
    rw [List.countP_append, ← balances.qualified, ← others.qualified]
    rfl
  decorators := by
    have := balances.decorators
    have := others.decorators
    simp only [Tally.add, List.flatMap_append, List.length_append]
    omega
  ignored := by
    rw [List.flatMap_append, List.map_append, List.filter_append, ← balances.ignored,
      ← others.ignored]
    rfl
  injectCalls := by
    rw [List.countP_append, ← balances.injectCalls, ← others.injectCalls]
    rfl
  flags qualifier := by
    rw [List.countP_append, ← balances.flags, ← others.flags]
    exact FlagCounts.count_add _ _ qualifier

/-- What one parameter adds agrees with it. -/
theorem single (parameter : Parameter) : Balances [parameter] parameter.tally where
  total := rfl
  halves := by
    simp only [Parameter.tally]
    split <;> rfl
  qualified := by
    rw [parameter.qualified_tally, List.countP_singleton]
  decorators := by
    have parts := List.length_eq_countP_add_countP isRecognized
      (l := parameter.decorators.map (·.name))
    rw [List.flatMap_singleton, parameter.ignored_tally, ← List.countP_eq_length_filter]
    simpa [isRecognized_iff, Parameter.tally] using parts.symm
  ignored := by
    rw [List.flatMap_singleton, parameter.ignored_tally]
  injectCalls := List.countP_singleton.symm
  flags qualifier := by
    rw [parameter.count_tally, List.countP_singleton]
    simp only [decide_eq_true_eq]

/-- A flag is true for qualified parameters only. -/
theorem flags_le (balances : Balances first tally) (qualifier : Qualifier) :
    tally.flags.count qualifier ≤ tally.qualified := by
  rw [balances.flags, balances.qualified]
  apply List.countP_mono_left
  intro parameter _ isTrue
  rw [decide_eq_true_eq] at isTrue
  cases flags : parameter.flags with
  | none => simp [flags, said] at isTrue
  | some flags => rfl

end Balances

/-- The parameters of a class that are resolved: none if the class has no name or a blank one. -/
def Class.resolvable (facts : Class) : List Parameter :=
  if facts.name.any (Text.trim · ≠ "") then facts.parameters else []

private theorem Class.resolvable_of_named {facts : Class} {name : String}
    (named : Writes facts.name name) : facts.resolvable = facts.parameters := by
  obtain ⟨text, written, rfl, nonempty⟩ := named
  simp [resolvable, written, nonempty]

private theorem Class.resolvable_of_anonymous {facts : Class}
    (anonymous : ∀ name, ¬Writes facts.name name) : facts.resolvable = [] := by
  apply if_neg
  rw [Option.any_eq_true]
  rintro ⟨text, written, nonempty⟩
  exact anonymous _ ⟨text, written, rfl, by simpa using nonempty⟩

/-- A call of the resolver: on a parameter, on a class, or on a batch of classes. -/
inductive Call where
  | parameter (owner file : String) (given : Parameter)
  | single (position : Option Int) (facts : Class)
  | batch (classes : List Class)

namespace Call

def notes : Call → List Note
  | parameter owner file given => (given.resolve owner file).notes
  | single position facts => (facts.resolve position).notes
  | batch classes => (resolveAll classes).notes

/-- The dependencies that a call returns, by themselves or in classes. -/
def returned : Call → List Resolved.Dependency
  | parameter owner file given => (given.resolve owner file).value.toList
  | single position facts => (facts.resolve position).value.toList.flatMap (·.dependencies)
  | batch classes => (resolveAll classes).value.flatMap (·.dependencies)

def parameters : Call → List Parameter
  | parameter _ _ given => [given]
  | single _ facts => facts.resolvable
  | batch classes => classes.flatMap Class.resolvable

end Call

/-- Notes count what agrees with the parameters, each of which gave a dependency or was skipped. -/
structure Settles (parameters : List Parameter) (dependencies : List Resolved.Dependency)
    (notes : List Note) : Prop where
  balances : Balances parameters (Note.counted notes)
  returned :
    parameters.length = dependencies.length + (parameters.filter (·.IsSkipped)).length

namespace Settles

/-- Where nothing is counted, no parameter was resolved. -/
theorem silent {notes : List Note} (uncounted : Note.counted notes = .zero) :
    Settles [] [] notes := ⟨uncounted ▸ .zero, rfl⟩

theorem append {first second : List Parameter} {given others : List Resolved.Dependency}
    {notes more : List Note} (settles : Settles first given notes)
    (rest : Settles second others more) :
    Settles (first ++ second) (given ++ others) (notes ++ more) where
  balances := by
    rw [Note.counted_append]
    exact settles.balances.add rest.balances
  returned := by
    have := settles.returned
    have := rest.returned
    simp only [List.filter_append, List.length_append]
    omega

/-- One parameter is counted once, and gives a dependency unless it is skipped. -/
theorem parameter (owner file : String) (given : Parameter) :
    Settles [given] (given.resolve owner file).value.toList (given.resolve owner file).notes := by
  have counted : Note.counted (given.resolve owner file).notes = given.tally := by
    unfold Parameter.resolve
    cases given.token <;> simp [Note.tallied, advise]
  refine ⟨counted ▸ .single given, ?_⟩
  by_cases skipped : given.IsSkipped
  · obtain ⟨skip, failed, _⟩ := Parameter.exists_skip skipped
    rw [(Parameter.resolve_of_skip owner file failed).1]
    simp [skipped]
  · obtain ⟨token, provides⟩ := not_forall_not.mp skipped
    rw [(Parameter.resolve_of_provides owner file provides).1]
    simp [skipped]

theorem parameters (owner file : String) (given : List Parameter) :
    Settles given ((given.map (·.resolve owner file)).filterMap (·.value))
      ((given.map (·.resolve owner file)).flatMap (·.notes)) := by
  rw [List.filterMap_eq_flatMap_toList]
  induction given with
  | nil => exact .silent rfl
  | cons first rest ih => exact (Settles.parameter owner file first).append ih

/-- A class without a name is left alone, and in one with a name each parameter is settled. -/
theorem single (position : Option Int) (facts : Class) :
    Settles facts.resolvable ((facts.resolve position).value.toList.flatMap (·.dependencies))
      (facts.resolve position).notes := by
  by_cases named : ∃ name, Writes facts.name name
  · obtain ⟨name, writes⟩ := named
    rw [Class.resolvable_of_named writes, Class.resolve_of_named writes]
    simpa using Settles.parameters name facts.file facts.parameters
  · have anonymous : facts.name.bind Text.nonBlank? = none := by
      rw [Option.eq_none_iff_forall_ne_some]
      exact fun name found => named ⟨name, writes_iff.mpr found⟩
    rw [Class.resolvable_of_anonymous (not_exists.mp named), Class.resolve, anonymous]
    exact .silent rfl

/-- The place of a class in its batch has no influence. -/
theorem batch (classes : List Class) :
    Settles (classes.flatMap Class.resolvable) ((resolveAll classes).value.flatMap (·.dependencies))
      (resolveAll classes).notes := by
  have each (start : Nat) : Settles (classes.flatMap Class.resolvable)
      ((((classes.zipIdx start).map fun item =>
        item.1.resolve (some (item.2 + 1 : Nat))).filterMap (·.value)).flatMap (·.dependencies))
      (((classes.zipIdx start).map fun item =>
        item.1.resolve (some (item.2 + 1 : Nat))).flatMap (·.notes)) := by
    rw [List.filterMap_eq_flatMap_toList]
    induction classes generalizing start with
    | nil => exact .silent rfl
    | cons facts rest ih =>
      have both := (Settles.single (some (start + 1 : Nat)) facts).append (ih (start + 1))
      simpa using both
  -- the event at the end counts nothing
  rw [← List.append_nil (classes.flatMap Class.resolvable),
    ← List.append_nil ((resolveAll classes).value.flatMap (·.dependencies))]
  exact (each 0).append (.silent rfl)

theorem call (call : Call) : Settles call.parameters call.returned call.notes := by
  cases call with
  | parameter owner file given => exact .parameter owner file given
  | single position facts => exact .single position facts
  | batch classes => exact .batch classes

theorem calls (calls : List Call) :
    Settles (calls.flatMap Call.parameters) (calls.flatMap Call.returned)
      (calls.flatMap Call.notes) := by
  induction calls with
  | nil => exact .silent rfl
  | cons first rest ih => exact (Settles.call first).append ih

end Settles

/-- What is done to a store: facts are resolved, or the store is operated on by itself. -/
inductive Step where
  | resolve (call : Call)
  | operate (operation : Diagnostics.Operation)

namespace Step

def isReset : Step → Bool
  | resolve _ => false
  | operate operation => operation.isReset

def call? : Step → Option Call
  | resolve call => some call
  | operate _ => none

def perform (store : Diagnostics) : Step → Diagnostics
  | resolve call => (store.absorb call.notes).1
  | operate operation => store.perform operation

/-- The store after steps, starting with nothing recorded. -/
def after (steps : List Step) : Diagnostics := steps.foldl perform .empty

/-- The calls of the resolver since the last reset, in order. -/
def callsSinceReset (steps : List Step) : List Call :=
  (steps.rtakeWhile fun step => !step.isReset).filterMap call?

variable (steps : List Step)

private theorem callsSinceReset_snoc (step : Step) :
    callsSinceReset (steps ++ [step]) =
      if step.isReset then [] else callsSinceReset steps ++ step.call?.toList := by
  unfold callsSinceReset
  cases reset : step.isReset with
  | true =>
    rw [List.rtakeWhile_concat_neg _ _ _ (by simp [reset])]
    rfl
  | false =>
    rw [List.rtakeWhile_concat_pos _ _ _ (by simp [reset]), List.filterMap_append]
    cases step <;> rfl

/-- A call adds what its notes count, a reset forgets all counts, and nothing else touches them. -/
theorem tally_perform (store : Diagnostics) (step : Step) :
    (perform store step).tally =
      if step.isReset then .zero
      else store.tally.add (Note.counted (step.call?.toList.flatMap Call.notes)) := by
  have recorded (diagnostic : Diagnostic) : (store.record diagnostic).1.tally = store.tally := by
    unfold Diagnostics.record
    split <;> rfl
  cases step with
  | resolve call =>
    rw [perform, Diagnostics.tally_absorb]
    simp [isReset, call?]
  | operate operation =>
    cases operation with
    | add diagnostic => exact (recorded diagnostic).trans (Tally.add_zero _).symm
    | warn category message file line column suggestion severity =>
      exact (recorded _).trans (Tally.add_zero _).symm
    | reset => rfl

/-- The statistics are what the calls since the last reset counted. -/
theorem tally_after :
    (after steps).tally = Note.counted ((callsSinceReset steps).flatMap Call.notes) := by
  induction steps using List.reverseRecOn with
  | nil => rfl
  | append_singleton before step ih =>
    have last : after (before ++ [step]) = perform (after before) step := by
      rw [after, List.foldl_append, after]
      rfl
    rw [last, tally_perform, callsSinceReset_snoc, ih]
    split
    · rfl
    · rw [List.flatMap_append, Note.counted_append]

/-- Whatever was done to a store, its statistics agree with the calls of the resolver since its last
reset. All parameters are those that were resolved; they are the qualified and the plain ones, and
also those that gave a dependency and those that were skipped. Decorators that mean something and
those that are ignored make up all decorators, and the names of the latter are listed in order. An
inject call is counted for each parameter that has one, and a flag for each parameter that has it
true; such a parameter is a qualified one. -/
theorem statistics_balance :
    let tally := (after steps).tally
    let calls := callsSinceReset steps
    let parameters := calls.flatMap Call.parameters
    tally.parameters = parameters.length ∧
    tally.parameters = tally.qualified + tally.plain ∧
    tally.parameters =
      (calls.flatMap Call.returned).length + (parameters.filter (·.IsSkipped)).length ∧
    tally.decorators + tally.ignored.length = (parameters.flatMap (·.decorators)).length ∧
    tally.ignored =
      ((parameters.flatMap (·.decorators)).map (·.name)).filter (· ∉ recognizedNames) ∧
    tally.injectCalls = parameters.countP (·.injectCall.isSome) ∧
    ∀ qualifier,
      tally.flags.count qualifier =
        parameters.countP (fun parameter => said parameter.flags qualifier = some true) ∧
      tally.flags.count qualifier ≤ tally.qualified := by
  intro tally calls parameters
  obtain ⟨balances, returned⟩ := Settles.calls calls
  rw [← tally_after] at balances
  refine ⟨balances.total, balances.halves.symm, ?_, balances.decorators, balances.ignored,
    balances.injectCalls, fun qualifier => ⟨balances.flags qualifier, balances.flags_le qualifier⟩⟩
  rw [balances.total]
  exact returned

end Step

end Facts

end Wiring
