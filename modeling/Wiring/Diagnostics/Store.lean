import Wiring.Diagnostics.Basic
import Wiring.Diagnostics.Tally

/-! # The store of diagnostics

Stages of the analysis are pure: each returns its result and notes on what it came across. The
store takes in the notes one by one. It keeps the first of diagnostics that say the same, adds up
the tallies, and hands on the events to be logged. Results therefore cannot depend on the store.
-/

namespace Wiring

open Json (Value)

/-- What a stage came across: numbers, advice, something to log, or a finished graph of which the
log shall also tell how many warnings there are. -/
inductive Note where
  | tally (tally : Tally)
  | advice (diagnostic : Diagnostic)
  | event (event : Log.Event)
  | built (nodes edges cycles : Nat)

/-- A result with the notes that were taken on the way, in order. -/
structure Noted (α : Type) where
  value : α
  notes : List Note

namespace Noted

def map {α β : Type} (f : α → β) (noted : Noted α) : Noted β := ⟨f noted.value, noted.notes⟩

/-- Go on from the result; the notes of both parts are kept. -/
def andThen {α β : Type} (noted : Noted α) (next : α → Noted β) : Noted β :=
  let result := next noted.value
  ⟨result.value, noted.notes ++ result.notes⟩

/-- Take one more note at the end. -/
def followedBy {α : Type} (noted : Noted α) (note : Note) : Noted α :=
  ⟨noted.value, noted.notes ++ [note]⟩

def withoutAdvice {α : Type} (noted : Noted α) : Noted α :=
  ⟨noted.value, noted.notes.filter fun note => match note with
    | .advice _ => false
    | _ => true⟩

end Noted

/-- The warnings recorded so far and the statistics. The keys of the warnings are kept apart from
them: whether a diagnostic is new is looked up there. -/
structure Diagnostics where
  warnings : List Diagnostic
  keys : List Diagnostic.Key
  tally : Tally
  keys_eq : keys = warnings.map (·.key)
deriving DecidableEq, Repr

namespace Diagnostics

def empty : Diagnostics := ⟨[], [], .zero, rfl⟩

/-- Forget the warnings, their keys and the statistics. -/
def reset (store : Diagnostics) : Diagnostics :=
  { store with warnings := [], keys := [], tally := .zero, keys_eq := rfl }

def count (store : Diagnostics) : Nat := store.warnings.length

theorem keys_snoc (store : Diagnostics) (diagnostic : Diagnostic) :
    store.keys ++ [diagnostic.key] = (store.warnings ++ [diagnostic]).map (·.key) := by
  rw [store.keys_eq, List.map_append, List.map_singleton]

/-- Record a diagnostic, unless its key is there. Tells whether it was recorded. -/
def record (store : Diagnostics) (diagnostic : Diagnostic) : Diagnostics × Bool :=
  if diagnostic.key ∈ store.keys then (store, false)
  else
    ({ store with
        warnings := store.warnings ++ [diagnostic]
        keys := store.keys ++ [diagnostic.key]
        keys_eq := store.keys_snoc diagnostic },
      true)

/-- Record a diagnostic that is given by its parts. -/
def warn (store : Diagnostics) (category : Diagnostic.Category) (message file : String)
    (line column : Option Int) (suggestion : Option String) (severity : Diagnostic.Severity) :
    Diagnostics × Bool :=
  store.record ⟨category, message, file, line, column, suggestion, severity⟩

/-- Take in a note, and tell what is to be logged about it. -/
def take (store : Diagnostics) : Note → Diagnostics × List Log.Event
  | .tally tally => ({ store with tally := store.tally.add tally }, [])
  | .advice diagnostic =>
    let (store, recorded) := store.record diagnostic
    (store, if recorded then [diagnostic.event] else [])
  | .event event => (store, [event])
  | .built nodes edges cycles =>
    (store, [.of .info .graphConstruction s!"Graph built: {nodes} nodes, {edges} edges"
      [("cycles", .ofNat cycles), ("warnings", .ofNat store.count)]])

/-- Take in notes one by one. -/
def absorb (store : Diagnostics) : List Note → Diagnostics × List Log.Event
  | [] => (store, [])
  | note :: rest =>
    let (store, events) := store.take note
    let (store, more) := store.absorb rest
    (store, events ++ more)

def ofCategory (store : Diagnostics) (category : Diagnostic.Category) : List Diagnostic :=
  store.warnings.filter fun diagnostic => diagnostic.category = category

/-- A bucket of warnings for each category, and how many warnings there are in all. -/
structure Grouping where
  buckets : List (Diagnostic.Category × List Diagnostic)
  total : Nat
deriving DecidableEq, Repr

/-- Put a diagnostic at the end of the bucket of its category. -/
def sortIn (buckets : List (Diagnostic.Category × List Diagnostic)) (diagnostic : Diagnostic) :
    List (Diagnostic.Category × List Diagnostic) :=
  buckets.map fun (category, bucket) =>
    (category, if diagnostic.category = category then bucket ++ [diagnostic] else bucket)

/-- Sort the warnings one by one into a bucket for each category, in the order of the categories. -/
def grouped (store : Diagnostics) : Grouping where
  buckets := store.warnings.foldl sortIn (Diagnostic.Category.all.map (·, []))
  total := store.count

/-- Write the warnings by category, and how many there are in all. -/
def encode (store : Diagnostics) : Value :=
  .obj [("categories", .obj (store.grouped.buckets.map fun (category, bucket) =>
      (category.name, .arr (bucket.map Diagnostic.encode)))),
    ("totalCount", .ofNat store.grouped.total)]

end Diagnostics

end Wiring
