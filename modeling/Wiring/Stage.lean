import Wiring.Diagnostics.Store

/-! # Stages that work on a store

A stage takes each note into a store at once, and hands on what is to be logged. It breaks off where
a value that it makes is refused, or where new advice is to be logged whose line has more digits
than an integer may have in a text; what was recorded up to there stays.
-/

namespace Wiring

open Json (Writing)

/-- Why a stage breaks off. -/
inductive Breach where
  | mixedRecords
  | refused (invalid : Schema.Invalid)
  | tooManyDigits (most : Nat)
deriving DecidableEq, Repr

namespace Breach

def sort : Breach → String
  | mixedRecords => "TypeError"
  | refused _ => "ValidationError"
  | tooManyDigits _ => "ValueError"

def message : Breach → String
  | mixedRecords => "build_graph() expects either ClassFacts or ResolvedClass records, not both"
  | refused invalid => invalid.message
  | tooManyDigits most =>
    s!"Exceeds the limit ({most} digits) for integer string conversion; " ++
      "use sys.set_int_max_str_digits() to increase the limit"

end Breach

/-- A store, the events that were handed on so far, and the most digits that an integer may have in
them, if there is a limit. -/
structure Ledger where
  store : Diagnostics
  events : List Log.Event
  digits : Option Nat

/-- Work on a ledger that gives a result or breaks off. -/
abbrev Stage (α : Type) := ExceptT Breach (StateM Ledger) α

/-- Why a note cannot be told, should it be new. -/
def Note.breach? (digits : Option Nat) : Note → Option Breach
  | advice diagnostic =>
    match digits, diagnostic.line with
    | some most, some line =>
      if line.natAbs < Nat.pow 10 most then none else some (.tooManyDigits most)
    | _, _ => none
  | tally _ | event _ | built _ _ _ => none

namespace Stage

/-- Take a note into the store, and tell what is new. -/
def take (note : Note) : Stage Unit := do
  let ledger ← get
  let (store, events) := ledger.store.take note
  match events, note.breach? ledger.digits with
  | _ :: _, some breach =>
    set { ledger with store := store }
    throw breach
  | events, _ => set { ledger with store := store, events := ledger.events ++ events }

def takeAll (notes : List Note) : Stage Unit := notes.forM take

/-- Take the notes of a result. -/
def noted {α : Type} (result : Noted α) : Stage α := do
  takeAll result.notes
  return result.value

/-- Check a string that becomes a field of a model. -/
def check (model field : String) (writing : Writing) : Stage Unit :=
  match ((Schema.Decoder.nonEmptyText writing.value).within (.key field)).forModel model with
  | .ok _ => return
  | .error invalid => throw (.refused invalid)

/-- Log an event at the end, also after a breach. -/
def closing {α : Type} (event : Log.Event) (stage : Stage α) : Stage α :=
  ExceptT.mk do
    let outcome ← stage.run
    modify fun ledger => { ledger with events := ledger.events ++ [event] }
    return outcome

end Stage

end Wiring
