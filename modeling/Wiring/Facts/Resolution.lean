import Wiring.Facts.Basic
import Wiring.Resolved
import Wiring.Stage

/-! # Resolving facts

A parameter depends on the token of its first `Inject` decorator that has one, else on the token
of its inject call, else on its type. Without a token it is skipped, with advice, if it has no
type, a type that says nothing, a primitive type, or a type whose import is unknown. Its flags are
those of its qualifier decorators joined with those of its inject call. A class is resolved if it
has a name, and depends on what its parameters depend on.

Facts of texts are resolved into a result with notes. Facts as they are read are resolved on a
ledger, step by step, with each token checked once more.
-/

namespace Wiring.Facts

open Json (Value Writing)

/-- The flags that a decorator asserts, if it is a qualifier. -/
def qualifier? (decorator : String) : Option Flags :=
  if decorator = "Optional" then some { Flags.unset with optional := some true }
  else if decorator = "Self" then some { Flags.unset with self := some true }
  else if decorator = "SkipSelf" then some { Flags.unset with skipSelf := some true }
  else if decorator = "Host" then some { Flags.unset with host := some true }
  else none

/-- Whether a decorator means something to the resolver. -/
def isRecognized (decorator : String) : Bool :=
  decorator = "Inject" || (qualifier? decorator).isSome

/-- Why a parameter gives no dependency. -/
inductive Skip where
  | untyped
  | vague
  | primitive (type : String)
  | unresolved (type : String)
deriving DecidableEq, Repr

namespace Skip

def category : Skip → Diagnostic.Category
  | untyped | vague => .typeResolution
  | primitive _ => .skippedTypes
  | unresolved _ => .unresolvedImports

/-- The wording of the advice, for a parameter of an owner. -/
def message (parameter owner : String) : Skip → String
  | untyped =>
    s!"Skipping parameter '{parameter}' of {owner}: no type annotation or injection token"
  | vague => s!"Skipping parameter '{parameter}' of {owner} with any/unknown type"
  | primitive type => s!"Skipping primitive type parameter '{parameter}' of {owner}: {type}"
  | unresolved type => s!"Unresolved type '{type}' for parameter '{parameter}' of {owner}"

def suggestion : Skip → String
  | untyped =>
    "Add a type annotation or an explicit injection token (@Inject(TOKEN) or inject(TOKEN))"
  | vague =>
    "Add an explicit injection token (@Inject(TOKEN) or inject(TOKEN)) or " ++
      "a concrete type annotation"
  | primitive _ =>
    "Provide primitive values through an injection token with @Inject(TOKEN) or inject(TOKEN)"
  | unresolved type => s!"Check the import of '{type}' and that it is exported from its module"

end Skip

/-- Types that say nothing. -/
def vagueTypes : List String := ["any", "unknown"]

/-- Types of values that are not injected. -/
def primitiveTypes : List String :=
  ["string", "number", "boolean", "symbol", "bigint", "object", "undefined", "null", "void",
    "never"]

/-- Advice at a location of a file. -/
def advise (category : Diagnostic.Category) (message file : String) (location : Option Location)
    (suggestion : String) : Note :=
  .advice
    { category := category
      message := message
      file := file
      line := location.map fun place => (place.line : Int)
      column := location.bind fun place => place.column.map fun column => (column : Int)
      suggestion := some suggestion
      severity := .warning }

namespace Parameter

/-- The flags that qualifier decorators assert. -/
def decoratorFlags (parameter : Parameter) : Option Flags :=
  match parameter.decorators.filterMap fun decorator => qualifier? decorator.name with
  | [] => none
  | asserted => some (asserted.foldl Flags.merge .unset)

/-- The flags that the inject call asserts. -/
def callFlags (parameter : Parameter) : Option Flags := do
  let call ← parameter.injectCall
  let options ← call.options
  if options.isEmpty then none else some options

def flags (parameter : Parameter) : Option Flags :=
  Flags.mergeAll [parameter.decoratorFlags, parameter.callFlags]

/-- The token of the first `Inject` decorator that has one. -/
def decoratorToken? (parameter : Parameter) : Option String :=
  parameter.decorators.findSome? fun decorator =>
    if decorator.name = "Inject" then decorator.token.bind Text.nonBlank? else none

def callToken? (parameter : Parameter) : Option String :=
  parameter.injectCall.bind fun call => call.token.bind Text.nonBlank?

/-- The type as a token, or why it is none. -/
def typeToken (parameter : Parameter) : Except Skip String :=
  match parameter.typeName with
  | none => .error .untyped
  | some type =>
    if type ∈ vagueTypes then .error .vague
    else if type ∈ primitiveTypes then .error (.primitive type)
    else if parameter.typeResolved then .ok type
    else .error (.unresolved type)

/-- The token that a parameter depends on, or why it has none. -/
def token (parameter : Parameter) : Except Skip String :=
  match parameter.decoratorToken?.or parameter.callToken? with
  | some token => .ok token
  | none => parameter.typeToken

/-- What a parameter adds to the statistics. -/
def tally (parameter : Parameter) : Tally :=
  let names := parameter.decorators.map (·.name)
  let qualified := names.any (fun name => (qualifier? name).isSome) || parameter.flags.isSome
  { flags := (parameter.flags.map FlagCounts.ofFlags).getD .zero
    ignored := names.filter fun name => !isRecognized name
    qualified := if qualified then 1 else 0
    plain := if qualified then 0 else 1
    decorators := names.countP isRecognized
    injectCalls := if parameter.injectCall.isSome then 1 else 0
    parameters := 1 }

/-- The asserted flags, or null if there are none. -/
def encodeFlags (parameter : Parameter) : Value :=
  (parameter.flags.map Flags.encodeAsserted).getD .null

/-- Resolve a parameter of an owner in a file. -/
def resolve (owner file : String) (parameter : Parameter) : Noted (Option Resolved.Dependency) :=
  match parameter.token with
  | .ok token =>
    { value := some ⟨token, parameter.name, parameter.flags⟩
      notes := [.tally parameter.tally,
        .event (.of .debug .typeResolution s!"Resolved parameter '{parameter.name}' of {owner}"
          [("token", .str token), ("flags", parameter.encodeFlags)])] }
  | .error skip =>
    { value := none
      notes := [.tally parameter.tally,
        advise skip.category (skip.message parameter.name owner) file parameter.location
          skip.suggestion] }

end Parameter

namespace Class

/-- The wording of the advice on an anonymous class; `position` is its place in a batch. -/
def anonymousMessage (facts : Class) (position : Option Int) : String :=
  let kind := facts.kind.name
  let file := if facts.file = "" then "" else s!" in {facts.file}"
  let record :=
    match position with
    | some position => s!" (class record {position})"
    | none => ""
  s!"Skipping anonymous {kind} class{file}{record}"

/-- Resolve a class, unless it is anonymous. -/
def resolve (position : Option Int) (facts : Class) : Noted (Option Resolved.Class) :=
  match facts.name.bind Text.nonBlank? with
  | none =>
    { value := none
      notes := [advise .skippedClasses (facts.anonymousMessage position) facts.file facts.location
        "Give the class a name so it can be included in the dependency graph"] }
  | some name =>
    let results := facts.parameters.map (·.resolve name facts.file)
    { value := some
        { name := some name
          kind := facts.kind
          file := some facts.file
          dependencies := results.filterMap (·.value)
          location := facts.location }
      notes := results.flatMap (·.notes) }

end Class

def resolvedEvent (given resolved : Nat) : Log.Event :=
  .of .info .typeResolution "Resolved decorated classes"
    [("input_classes", .ofNat given), ("resolved_classes", .ofNat resolved)]

/-- Resolve a batch of classes in order, leaving out the anonymous ones. -/
def resolveAll (classes : List Class) : Noted (List Resolved.Class) :=
  let results := classes.zipIdx.map fun (facts, place) => facts.resolve (some (place + 1 : Nat))
  let resolved := results.filterMap (·.value)
  { value := resolved
    notes := results.flatMap (·.notes) ++
      [.event (resolvedEvent classes.length resolved.length)] }

/-- The string that a parameter takes its token from, if it takes one. -/
def Parameter.source? (parameter : Parameter Writing) : Option Writing :=
  let given := parameter.decorators.findSome? fun decorator =>
    if decorator.name = "Inject" then decorator.token.bind Writing.nonBlank? else none
  let called := parameter.injectCall.bind fun call => call.token.bind Writing.nonBlank?
  match (parameter.map Writing.text).token with
  | .ok _ => (given.or called).or (parameter.typeName.bind Writing.nonBlank?)
  | .error _ => none

def Parameter.resolveOn (owner file : String) (parameter : Parameter Writing) :
    Stage (Option Resolved.Dependency) := do
  let dependency ← Stage.noted ((parameter.map Writing.text).resolve owner file)
  parameter.source?.forM (Stage.check "ResolvedDependency" "token")
  return dependency

/-- Resolve a class on a ledger, unless it is anonymous. -/
def Class.resolveOn (position : Option Int) (facts : Class Writing) :
    Stage (Option (Resolved.Class Writing)) := do
  match facts.name.bind Writing.nonBlank? with
  | none =>
    Stage.takeAll ((facts.map Writing.text).resolve position).notes
    return none
  | some name =>
    let results ← facts.parameters.mapM (·.resolveOn name.text facts.file)
    return some
      { name := some name
        kind := facts.kind
        file := some facts.file
        dependencies := results.filterMap id
        location := facts.location }

def resolveAllOn (classes : List (Class Writing)) : Stage (List (Resolved.Class Writing)) := do
  let results ← classes.zipIdx.mapM fun (facts, place) =>
    facts.resolveOn (some (place + 1 : Nat))
  let resolved := results.filterMap id
  Stage.take (.event (resolvedEvent classes.length resolved.length))
  return resolved

end Wiring.Facts
