import Wiring.Log.Tag

/-! # Log events

An event has a numeric level, a tag that names the part of the work it belongs to, a message and
perhaps a JSON context.
-/

namespace Wiring.Log

open Json (Value)

/-- How much an event matters. -/
abbrev Level := Int

namespace Level

/-- Detail for whoever follows the work. -/
def debug : Level := 10

/-- Progress. -/
def info : Level := 20

/-- Something that deserves a look. -/
def warning : Level := 30

/-- The name of a level; one without a name is shown by its number. -/
def name (level : Level) : String :=
  if level = 10 then "DEBUG"
  else if level = 20 then "INFO"
  else if level = 30 then "WARNING"
  else if level = 40 then "ERROR"
  else if level = 50 then "CRITICAL"
  else s!"Level {level}"

/-- Why a value is no level. -/
inductive Fault where
  | notInteger
deriving DecidableEq, Repr

def Fault.message : Fault → String
  | notInteger => "level must be an integer"

/-- The level that a value gives. A truth value counts as one or zero. -/
def ofValue : Value → Except Fault Level
  | .int n => .ok n
  | .bool b => .ok (if b then 1 else 0)
  | _ => .error .notInteger

end Level

/-- The part of the work that an event belongs to. -/
inductive Category where
  | fileProcessing
  | typeResolution
  | graphConstruction
  | filtering
  | errorRecovery
  | performance
deriving DecidableEq, Repr

namespace Category

def tag : Category → String
  | fileProcessing => "file-processing"
  | typeResolution => "type-resolution"
  | graphConstruction => "graph-construction"
  | filtering => "filtering"
  | errorRecovery => "error-recovery"
  | performance => "performance"

def all : List Category :=
  [fileProcessing, typeResolution, graphConstruction, filtering, errorRecovery, performance]

def ofTag? (tag : String) : Option Category := all.find? (·.tag == tag)

end Category

/-- Something worth logging. -/
structure Event where
  level : Level
  tag : Tag
  message : String
  context : Option Value

namespace Event

/-- An event of a category; an empty context is none. -/
def of (level : Level) (category : Category) (message : String)
    (context : List (String × Value)) : Event where
  level := level
  tag := .word category.tag
  message := message
  context := if context.isEmpty then none else some (.obj context)

/-- The parts of an event that every caller gives, by name. -/
def partNames : List String := ["log", "level", "category", "message"]

/-- A context that names a part of the event. -/
structure RepeatedPart where
  name : String
deriving DecidableEq, Repr

def RepeatedPart.message (fault : RepeatedPart) : String :=
  "log_event() got multiple values for argument " ++ Text.quoted fault.name

/-- An event of a category, unless its context names one of the other parts. -/
def of? (level : Level) (category : Category) (message : String)
    (context : List (String × Value)) : Except RepeatedPart Event :=
  match context.find? fun member => partNames.contains member.1 with
  | some (name, _) => .error ⟨name⟩
  | none => .ok (of level category message context)

/-- An event outside the categories, with any value for its tag and any value for its context. -/
def bare (level : Level) (message : String) (tag context : Value) : Event where
  level := level
  tag := .ofValue tag
  message := message
  context := if isVoid context then none else some context

/-- The end of a block of work that took some milliseconds. -/
def finished (label : String) (category : Category) (elapsed : Binary64) : Event :=
  of .debug category s!"{label} finished" [("elapsed_ms", .float elapsed)]

def line (stamp : String) (event : Event) : String :=
  let level := event.level.name
  let tag := event.tag.text
  let message := event.message
  let context :=
    match event.context with
    | some value => " " ++ Json.canonical value
    | none => ""
  s!"[{stamp}] [{level}] [{tag}] {message}{context}\n"

end Event

/-- Milliseconds that have passed on a clock of 1024 ticks a second, to three places, a half going
to the even neighbour. Seconds and milliseconds are binary64 numbers on the way. -/
def milliseconds (ticks : Int) : Binary64 :=
  ((Binary64.ofRatio (ticks < 0) ticks.natAbs 1024).times 1000).roundPlaces 3

/-- No time at all. Pure work takes none. -/
def instant : Binary64 := .zero false

end Wiring.Log
