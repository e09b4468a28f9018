import Wiring.Facts.Resolution
import Wiring.Proofs.Diagnostics
import Wiring.Proofs.Losses

/-! # What a parameter depends on

A parameter provides a token by the first of three rules that gives one: an `Inject` decorator, the
inject call, the type. Where none does, it is skipped, and the first of four rules that applies
names the category of the advice on it. The advice is in the store afterwards, whatever the store
held before: it is added, or it was there. A class depends on what its parameters provide.
-/

namespace Wiring

namespace Diagnostics

/-- Advice that was taken in is in the store, if only by another diagnostic with its key. -/
theorem exists_recorded (store : Diagnostics) {notes : List Note} {diagnostic : Diagnostic}
    (advised : diagnostic ∈ Note.advised notes) :
    ∃ warning ∈ (store.absorb notes).1.warnings, warning.key = diagnostic.key := by
  have known := mem_keys_novel store.keys advised
  rw [store.keys_eq, ← List.map_append, ← store.keys_eq, ← warnings_absorb] at known
  exact List.mem_map.mp known

end Diagnostics

namespace Facts

/-- A token is written: it is what is left of a text without the blanks around it, and not empty. -/
def Writes (written : Option String) (token : String) : Prop :=
  ∃ text, written = some text ∧ Text.trim text = token ∧ token ≠ ""

theorem writes_iff {written : Option String} {token : String} :
    Writes written token ↔ written.bind Text.nonBlank? = some token := by
  simp only [Writes, Option.bind_eq_some_iff, Text.nonBlank?_eq_some_iff]

/-- A decorator injects a token. -/
def Decorator.Injects (decorator : Decorator) (token : String) : Prop :=
  decorator.name = "Inject" ∧ Writes decorator.token token

namespace Parameter

variable {parameter : Parameter} {token : String}

/-- A parameter provides a token. A rule gives way to those before it. -/
inductive Provides (parameter : Parameter) : String → Prop
  | decorator {before after : List Decorator} {decorator : Decorator} {token : String}
    (split : parameter.decorators = before ++ decorator :: after)
    (first : ∀ earlier ∈ before, ∀ other, ¬earlier.Injects other)
    (injects : decorator.Injects token) : Provides parameter token
  | call {call : InjectCall} {token : String}
    (undecorated : ∀ decorator ∈ parameter.decorators, ∀ other, ¬decorator.Injects other)
    (called : parameter.injectCall = some call) (writes : Writes call.token token) :
    Provides parameter token
  | type {type : String}
    (undecorated : ∀ decorator ∈ parameter.decorators, ∀ other, ¬decorator.Injects other)
    (uncalled : ∀ call, parameter.injectCall = some call → ∀ other, ¬Writes call.token other)
    (typed : parameter.typeName = some type) (definite : type ∉ vagueTypes)
    (injectable : type ∉ primitiveTypes) (resolved : parameter.typeResolved = true) :
    Provides parameter type

/-- The rules by which a parameter without a given token is skipped, in order, each with the
category of its advice. -/
def skipRules : List (Diagnostic.Category × (Parameter → Bool)) :=
  [(.typeResolution, fun parameter => parameter.typeName.isNone),
    (.typeResolution, fun parameter => parameter.typeName.any (· ∈ vagueTypes)),
    (.skippedTypes, fun parameter => parameter.typeName.any (· ∈ primitiveTypes)),
    (.unresolvedImports, fun parameter => !parameter.typeResolved)]

/-- The category of the first rule that applies. -/
def skipCategory? (parameter : Parameter) : Option Diagnostic.Category :=
  (skipRules.find? fun rule => rule.2 parameter).map (·.1)

/-- A diagnostic is of a category and tells of a parameter of an owner, where it stands. -/
structure Reports (owner file : String) (parameter : Parameter) (category : Diagnostic.Category)
    (diagnostic : Diagnostic) : Prop where
  category_eq : diagnostic.category = category
  file_eq : diagnostic.file = file
  line_eq : diagnostic.line = parameter.location.map fun place => (place.line : Int)
  column_eq : diagnostic.column =
    parameter.location.bind fun place => place.column.map fun column => (column : Int)
  names : ∃ before after,
    diagnostic.message = before ++ parameter.name ++ "' of " ++ owner ++ after

/-- Resolve a parameter with a store at hand: what it depends on, and what the store holds
afterwards. -/
def resolveIn (store : Diagnostics) (owner file : String) (parameter : Parameter) :
    Option Resolved.Dependency × Diagnostics :=
  ((parameter.resolve owner file).value,
    (store.absorb (parameter.resolve owner file).notes).1)

section Tokens

theorem injects_iff {decorator : Decorator} :
    (if decorator.name = "Inject" then decorator.token.bind Text.nonBlank? else none) = some token ↔
      decorator.Injects token := by
  rw [Decorator.Injects, writes_iff]
  split <;> simp [*]

theorem not_injects_iff {decorator : Decorator} :
    (if decorator.name = "Inject" then decorator.token.bind Text.nonBlank? else none) = none ↔
      ∀ token, ¬decorator.Injects token := by
  simp only [Option.eq_none_iff_forall_ne_some, ne_eq, injects_iff]

theorem decoratorToken?_eq_none_iff :
    parameter.decoratorToken? = none ↔
      ∀ decorator ∈ parameter.decorators, ∀ token, ¬decorator.Injects token := by
  simp only [decoratorToken?, List.findSome?_eq_none_iff, not_injects_iff]

theorem callToken?_eq_some_iff :
    parameter.callToken? = some token ↔
      ∃ call, parameter.injectCall = some call ∧ Writes call.token token := by
  simp only [callToken?, Option.bind_eq_some_iff, writes_iff]

private theorem callToken?_eq_none_iff :
    parameter.callToken? = none ↔
      ∀ call, parameter.injectCall = some call → ∀ token, ¬Writes call.token token := by
  simp only [Option.eq_none_iff_forall_ne_some, ne_eq, callToken?_eq_some_iff, not_exists, not_and]
  exact ⟨fun nothing call called token => nothing token call called,
    fun nothing token call called => nothing call called token⟩

/-- A type gives itself as a token, or it is told of in the category of the first rule that
applies. -/
theorem typeToken_cases (parameter : Parameter) :
    (∃ type, parameter.typeToken = .ok type ∧ parameter.typeName = some type ∧
      type ∉ vagueTypes ∧ type ∉ primitiveTypes ∧ parameter.typeResolved = true) ∨
    ∃ skip, parameter.typeToken = .error skip ∧
      parameter.skipCategory? = some skip.category := by
  cases typed : parameter.typeName with
  | none =>
    refine .inr ⟨.untyped, ?_, ?_⟩
    · simp [typeToken, typed]
    · simp [skipCategory?, skipRules, typed, Skip.category]
  | some type =>
    -- each case fails the rules before its own
    by_cases vague : type ∈ vagueTypes
    · refine .inr ⟨.vague, ?_, ?_⟩
      · simp [typeToken, typed, vague]
      · simp [skipCategory?, skipRules, typed, vague, Skip.category]
    by_cases primitive : type ∈ primitiveTypes
    · refine .inr ⟨.primitive type, ?_, ?_⟩
      · simp [typeToken, typed, vague, primitive]
      · simp [skipCategory?, skipRules, typed, vague, primitive, Skip.category]
    cases resolved : parameter.typeResolved with
    | false =>
      refine .inr ⟨.unresolved type, ?_, ?_⟩
      · simp [typeToken, typed, vague, primitive, resolved]
      · simp [skipCategory?, skipRules, typed, vague, primitive, resolved, Skip.category]
    | true =>
      refine .inl ⟨type, ?_, rfl, vague, primitive, rfl⟩
      simp [typeToken, typed, vague, primitive, resolved]

theorem typeToken_eq_ok_iff :
    parameter.typeToken = .ok token ↔
      parameter.typeName = some token ∧ token ∉ vagueTypes ∧ token ∉ primitiveTypes ∧
        parameter.typeResolved = true := by
  constructor
  · intro found
    rcases parameter.typeToken_cases with ⟨type, same, admitted⟩ | ⟨skip, failed, _⟩
    · obtain rfl := Except.ok.inj (found.symm.trans same)
      exact admitted
    · simp [found] at failed
  · rintro ⟨typed, definite, injectable, resolved⟩
    simp [typeToken, typed, definite, injectable, resolved]

/-- The token of a parameter is the one that it provides. -/
theorem token_eq_ok_iff : parameter.token = .ok token ↔ parameter.Provides token := by
  constructor
  · intro found
    unfold Parameter.token at found
    split at found
    · rename_i given
      obtain rfl := Except.ok.inj found
      rcases Option.or_eq_some_iff.mp given with decorated | ⟨undecorated, called⟩
      · obtain ⟨before, decorator, after, split, injects, first⟩ :=
          List.findSome?_eq_some_iff.mp decorated
        exact .decorator split (fun earlier listed => not_injects_iff.mp (first earlier listed))
          (injects_iff.mp injects)
      · obtain ⟨call, called, writes⟩ := callToken?_eq_some_iff.mp called
        exact .call (decoratorToken?_eq_none_iff.mp undecorated) called writes
    · rename_i ungiven
      obtain ⟨undecorated, uncalled⟩ := Option.or_eq_none_iff.mp ungiven
      obtain ⟨typed, definite, injectable, resolved⟩ := typeToken_eq_ok_iff.mp found
      exact .type (decoratorToken?_eq_none_iff.mp undecorated) (callToken?_eq_none_iff.mp uncalled)
        typed definite injectable resolved
  · intro provides
    unfold Parameter.token
    cases provides with
    | decorator split first injects =>
      have decorated : parameter.decoratorToken? = some token :=
        List.findSome?_eq_some_iff.mpr ⟨_, _, _, split, injects_iff.mpr injects,
          fun earlier listed => not_injects_iff.mpr (first earlier listed)⟩
      rw [decorated, Option.some_or]
    | call undecorated called writes =>
      rw [decoratorToken?_eq_none_iff.mpr undecorated, Option.none_or,
        callToken?_eq_some_iff.mpr ⟨_, called, writes⟩]
    | type undecorated uncalled typed definite injectable resolved =>
      rw [decoratorToken?_eq_none_iff.mpr undecorated, Option.none_or,
        callToken?_eq_none_iff.mpr uncalled]
      exact typeToken_eq_ok_iff.mpr ⟨typed, definite, injectable, resolved⟩

/-- A parameter that provides no token is skipped for a reason, and the first rule that applies has
the category of the reason. -/
theorem exists_skip (nothing : ∀ token, ¬parameter.Provides token) :
    ∃ skip, parameter.token = .error skip ∧ parameter.skipCategory? = some skip.category := by
  have byType : parameter.token = parameter.typeToken := by
    unfold Parameter.token
    split
    · rename_i token given
      refine absurd (token_eq_ok_iff.mp ?_) (nothing token)
      rw [Parameter.token, given]
    · rfl
  rcases parameter.typeToken_cases with ⟨type, found, _⟩ | ⟨skip, failed, category⟩
  · exact absurd (token_eq_ok_iff.mp (byType.trans found)) (nothing type)
  · exact ⟨skip, byType.trans failed, category⟩

end Tokens

section Advice

variable {owner file : String} {category : Diagnostic.Category} {first second : Diagnostic}

/-- What a diagnostic reports can be seen from its key. -/
theorem Reports.of_key (reports : Reports owner file parameter category first)
    (same : second.key = first.key) : Reports owner file parameter category second := by
  obtain ⟨sameCategory, sameFile, sameLine, sameColumn, sameMessage⟩ :=
    Diagnostic.Key.mk.inj same
  exact ⟨sameCategory.trans reports.category_eq, sameFile.trans reports.file_eq,
    sameLine.trans reports.line_eq, sameColumn.trans reports.column_eq,
    sameMessage ▸ reports.names⟩

/-- The wording of advice names the parameter and then its owner. -/
theorem message_names (skip : Skip) (name owner : String) :
    ∃ before after, skip.message name owner = before ++ name ++ "' of " ++ owner ++ after := by
  cases skip with
  | untyped => exact ⟨"Skipping parameter '", _, rfl⟩
  | vague => exact ⟨"Skipping parameter '", _, rfl⟩
  | primitive type =>
    exact ⟨"Skipping primitive type parameter '", ": " ++ type, String.append_assoc ..⟩
  | unresolved type =>
    exact ⟨"Unresolved type '" ++ type ++ "' for parameter '", "", String.append_empty.symm⟩

variable (owner file)

theorem resolve_of_provides (provides : parameter.Provides token) :
    (parameter.resolve owner file).value = some ⟨token, parameter.name, parameter.flags⟩ ∧
      Note.advised (parameter.resolve owner file).notes = [] := by
  rw [resolve, token_eq_ok_iff.mpr provides]
  exact ⟨rfl, rfl⟩

theorem resolve_of_skip {skip : Skip} (skipped : parameter.token = .error skip) :
    (parameter.resolve owner file).value = none ∧
      ∃ diagnostic, Note.advised (parameter.resolve owner file).notes = [diagnostic] ∧
        Reports owner file parameter skip.category diagnostic := by
  rw [resolve, skipped]
  exact ⟨rfl, _, rfl, ⟨rfl, rfl, rfl, rfl, message_names skip parameter.name owner⟩⟩

private theorem resolveIn_of_provides (store : Diagnostics) (provides : parameter.Provides token) :
    (parameter.resolveIn store owner file).1 = some ⟨token, parameter.name, parameter.flags⟩ ∧
      (parameter.resolveIn store owner file).2.warnings = store.warnings := by
  obtain ⟨value, quiet⟩ := resolve_of_provides owner file provides
  refine ⟨value, ?_⟩
  rw [resolveIn, Diagnostics.warnings_absorb, quiet]
  exact List.append_nil _

/-- The advice on a skipped parameter is in the store afterwards: it was there, or it is added and
nothing else is. -/
theorem resolveIn_of_skip (store : Diagnostics) {skip : Skip}
    (skipped : parameter.token = .error skip) :
    (parameter.resolveIn store owner file).1 = none ∧
      ∃ diagnostic ∈ (parameter.resolveIn store owner file).2.warnings,
        Reports owner file parameter skip.category diagnostic ∧
        ((parameter.resolveIn store owner file).2.warnings = store.warnings ∨
          (parameter.resolveIn store owner file).2.warnings = store.warnings ++ [diagnostic]) := by
  obtain ⟨value, advice, alone, reports⟩ := resolve_of_skip owner file skipped
  refine ⟨value, ?_⟩
  have recorded : (parameter.resolveIn store owner file).2.warnings =
      store.warnings ++ Diagnostics.novel store.keys [advice] := by
    rw [resolveIn, Diagnostics.warnings_absorb, alone]
  rw [recorded, Diagnostics.novel_singleton]
  split
  · rename_i old
    rw [store.keys_eq] at old
    obtain ⟨earlier, listed, same⟩ := List.mem_map.mp old
    rw [List.append_nil]
    exact ⟨earlier, listed, reports.of_key same, .inl rfl⟩
  · exact ⟨advice, List.mem_append_right _ (List.mem_singleton_self _), reports, .inr rfl⟩

end Advice

end Parameter

namespace Class

open Parameter (Reports)

/-- The dependencies that parameters give, in order: one for each that provides a token, and none
for one that is skipped. -/
inductive Yields : List Parameter → List Resolved.Dependency → Prop
  | nil : Yields [] []
  | provided {parameter : Parameter} {token : String} {rest : List Parameter}
    {dependencies : List Resolved.Dependency} (provides : parameter.Provides token)
    (yields : Yields rest dependencies) :
    Yields (parameter :: rest) (⟨token, parameter.name, parameter.flags⟩ :: dependencies)
  | skipped {parameter : Parameter} {rest : List Parameter}
    {dependencies : List Resolved.Dependency} (nothing : ∀ token, ¬parameter.Provides token)
    (yields : Yields rest dependencies) : Yields (parameter :: rest) dependencies

variable {facts : Class} {name : String}

theorem yields_resolve (owner file : String) (parameters : List Parameter) :
    Yields parameters ((parameters.map (·.resolve owner file)).filterMap (·.value)) := by
  induction parameters with
  | nil => exact .nil
  | cons parameter rest ih =>
    rw [List.map_cons]
    by_cases provided : ∃ token, parameter.Provides token
    · obtain ⟨token, provides⟩ := provided
      rw [List.filterMap_cons_some (Parameter.resolve_of_provides owner file provides).1]
      exact .provided provides ih
    · have nothing := not_exists.mp provided
      obtain ⟨skip, skipped, _⟩ := Parameter.exists_skip nothing
      rw [List.filterMap_cons_none (Parameter.resolve_of_skip owner file skipped).1]
      exact .skipped nothing ih

theorem resolve_of_named (named : Writes facts.name name) (position : Option Int) :
    facts.resolve position =
      { value := some
          { name := some name
            kind := facts.kind
            file := some facts.file
            dependencies := (facts.parameters.map (·.resolve name facts.file)).filterMap (·.value)
            location := facts.location }
        notes := (facts.parameters.map (·.resolve name facts.file)).flatMap (·.notes) } := by
  rw [resolve, writes_iff.mp named]

/-- Advice on a parameter is among the advice on its class. -/
theorem advised_resolve_subset (named : Writes facts.name name) (position : Option Int)
    {parameter : Parameter} (listed : parameter ∈ facts.parameters) :
    Note.advised (parameter.resolve name facts.file).notes ⊆
      Note.advised (facts.resolve position).notes := by
  rw [resolve_of_named named]
  intro diagnostic advised
  obtain ⟨note, taken, told⟩ := List.mem_filterMap.mp advised
  refine List.mem_filterMap.mpr ⟨note, List.mem_flatMap.mpr ⟨_, ?_, taken⟩, told⟩
  exact List.mem_map_of_mem listed

/-- A skipped parameter of a class is told of. -/
theorem exists_reported (store : Diagnostics) (named : Writes facts.name name)
    (position : Option Int) {parameter : Parameter} (listed : parameter ∈ facts.parameters)
    (nothing : ∀ token, ¬parameter.Provides token) :
    ∃ category, parameter.skipCategory? = some category ∧
      ∃ diagnostic ∈ (store.absorb (facts.resolve position).notes).1.warnings,
        Reports name facts.file parameter category diagnostic := by
  obtain ⟨skip, skipped, first⟩ := Parameter.exists_skip nothing
  obtain ⟨_, advice, alone, reports⟩ := Parameter.resolve_of_skip name facts.file skipped
  have advised := advised_resolve_subset named position listed (alone ▸ List.mem_singleton_self _)
  obtain ⟨warning, recorded, same⟩ := store.exists_recorded advised
  exact ⟨_, first, warning, recorded, reports.of_key same⟩

end Class

/-- Whatever a store holds, a parameter depends on the token that it provides, and then no
diagnostic is added. A parameter that provides none gives no dependency, and the store holds
afterwards a diagnostic that tells of it, in the category of the first rule that applies; it was
there before, or it alone is added. A class with a name depends on what its parameters provide, in
order, and each parameter that is skipped on the way is told of. -/
theorem resolve_precedence (store : Diagnostics) (owner file : String) (parameter : Parameter)
    (facts : Class) (position : Option Int) :
    let after := parameter.resolveIn store owner file
    (∀ token, parameter.Provides token →
      after.1 = some ⟨token, parameter.name, parameter.flags⟩ ∧
        after.2.warnings = store.warnings) ∧
    ((∀ token, ¬parameter.Provides token) →
      after.1 = none ∧ ∃ category, parameter.skipCategory? = some category ∧
        ∃ diagnostic ∈ after.2.warnings,
          Parameter.Reports owner file parameter category diagnostic ∧
          (after.2.warnings = store.warnings ∨
            after.2.warnings = store.warnings ++ [diagnostic])) ∧
    (∀ name, Writes facts.name name →
      (∃ resolved, (facts.resolve position).value = some resolved ∧ resolved.name = some name ∧
        Class.Yields facts.parameters resolved.dependencies) ∧
      ∀ skipped ∈ facts.parameters, (∀ token, ¬skipped.Provides token) →
        ∃ category, skipped.skipCategory? = some category ∧
          ∃ diagnostic ∈ (store.absorb (facts.resolve position).notes).1.warnings,
            Parameter.Reports name facts.file skipped category diagnostic) := by
  intro after
  refine ⟨fun token provides => Parameter.resolveIn_of_provides owner file store provides,
    fun nothing => ?_, fun name named => ⟨?_, fun skipped listed nothing => ?_⟩⟩
  · obtain ⟨skip, skipped, first⟩ := Parameter.exists_skip nothing
    obtain ⟨value, reported⟩ := Parameter.resolveIn_of_skip owner file store skipped
    exact ⟨value, _, first, reported⟩
  · rw [Class.resolve_of_named named]
    exact ⟨_, rfl, rfl, Class.yields_resolve name facts.file facts.parameters⟩
  · exact Class.exists_reported store named position listed nothing

/-- A parameter with an `Inject` decorator whose token is blank before one that has a token. -/
def decorated : Parameter where
  name := "log"
  typeName := some "any"
  typeResolved := false
  decorators := [⟨"Inject", some " "⟩, ⟨"Optional", none⟩, ⟨"Inject", some " LOG "⟩]
  injectCall := some ⟨some "Log", none⟩
  location := none

/-- A parameter to which two rules apply: its type is primitive, and its import is not known. -/
def sized : Parameter where
  name := "size"
  typeName := some "number"
  typeResolved := false
  decorators := [⟨"Inject", none⟩]
  injectCall := some ⟨some "", none⟩
  location := some ⟨3, some 7⟩

theorem resolve_precedence_sized :
    let facts : Class := ⟨some " Users", .service, "app.ts", [decorated, sized], none⟩
    let after := sized.resolveIn .empty "Users" "app.ts"
    decorated.Provides "LOG" ∧
    (decorated.resolveIn .empty "Users" "app.ts").1 =
      some ⟨"LOG", "log", some ⟨some true, none, none, none⟩⟩ ∧
    (∀ token, ¬sized.Provides token) ∧ after.1 = none ∧
    (∃ diagnostic ∈ after.2.warnings,
      Parameter.Reports "Users" "app.ts" sized .skippedTypes diagnostic) ∧
    Writes facts.name "Users" ∧
    ∃ resolved, (facts.resolve none).value = some resolved ∧
      Class.Yields [decorated, sized] resolved.dependencies := by
  intro facts after
  have provides : decorated.Provides "LOG" := Parameter.token_eq_ok_iff.mp rfl
  have skipped : sized.token = .error (.primitive "number") := rfl
  have nothing (token : String) : ¬sized.Provides token := by
    intro provides
    simp [Parameter.token_eq_ok_iff.mpr provides] at skipped
  have named : Writes facts.name "Users" := writes_iff.mpr rfl
  obtain ⟨given, _, _⟩ :=
    resolve_precedence .empty "Users" "app.ts" decorated facts none
  obtain ⟨_, told, classes⟩ := resolve_precedence .empty "Users" "app.ts" sized facts none
  obtain ⟨value, category, first, diagnostic, listed, reports, _⟩ := told nothing
  obtain rfl : .skippedTypes = category := Option.some.inj first
  obtain ⟨resolved, found, _, yields⟩ := (classes "Users" named).1
  exact ⟨provides, (given "LOG" provides).1, nothing, value, ⟨diagnostic, listed, reports⟩, named,
    resolved, found, yields⟩

end Facts

end Wiring
