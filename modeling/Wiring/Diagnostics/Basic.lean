import Wiring.Log.Event
import Wiring.Schema.Decode

/-! # Diagnostics

A diagnostic is advice about the input. It never stops the work.
-/

namespace Wiring

open Schema
open Json (Value)

namespace Diagnostic

/-- What a diagnostic is about. -/
inductive Category where
  | typeResolution
  | skippedTypes
  | unresolvedImports
  | circularReferences
  | performance
  | skippedClasses
deriving DecidableEq, Repr

namespace Category

def name : Category → String
  | typeResolution => "typeResolution"
  | skippedTypes => "skippedTypes"
  | unresolvedImports => "unresolvedImports"
  | circularReferences => "circularReferences"
  | performance => "performance"
  | skippedClasses => "skippedClasses"

/-- All categories, in the order in which they are listed. -/
def all : List Category :=
  [typeResolution, skippedTypes, unresolvedImports, circularReferences, performance, skippedClasses]

def ofName? (name : String) : Option Category := all.find? (·.name == name)

def decode : Decoder Category :=
  Decoder.oneOf .notMember (all.map fun category => (category.name, category))

end Category

/-- How serious a diagnostic is. -/
inductive Severity where
  | warning
  | error
  | info
deriving DecidableEq, Repr

namespace Severity

def name : Severity → String
  | warning => "warning"
  | error => "error"
  | info => "info"

def all : List Severity := [warning, error, info]

def decode : Decoder Severity :=
  Decoder.oneOf .notMember (all.map fun severity => (severity.name, severity))

end Severity

end Diagnostic

/-- Advice about the input. -/
structure Diagnostic where
  category : Diagnostic.Category
  message : String
  file : String
  line : Option Int
  column : Option Int
  suggestion : Option String
  severity : Diagnostic.Severity
deriving DecidableEq, Repr

namespace Diagnostic

/-- What two diagnostics have in common when they say the same. -/
structure Key where
  category : Category
  file : String
  line : Option Int
  column : Option Int
  message : String
deriving DecidableEq, Repr

def key (diagnostic : Diagnostic) : Key where
  category := diagnostic.category
  file := diagnostic.file
  line := diagnostic.line
  column := diagnostic.column
  message := diagnostic.message

/-- The file and the line of a diagnostic, as far as they are known. A line of zero is not. -/
def place (diagnostic : Diagnostic) : String :=
  match diagnostic.line with
  | none | some 0 => diagnostic.file
  | some line => s!"{diagnostic.file}:{line}"

def event (diagnostic : Diagnostic) : Log.Event where
  level := if diagnostic.severity = .info then .info else .warning
  tag := .word diagnostic.category.name
  message :=
    diagnostic.message ++ if diagnostic.place = "" then "" else s!" ({diagnostic.place})"
  context := none

/-- An integer, or null in its absence. -/
def encodeInt? : Option Int → Value
  | some n => .int n
  | none => .null

def decode : Decoder Diagnostic :=
  record "Diagnostic" <|
    Diagnostic.mk <$> Fields.required ["category"] Category.decode
      <*> Fields.required ["message"] Decoder.text
      <*> Fields.withDefault ["file"] "" Decoder.text
      <*> Fields.nullable ["line"] Decoder.int
      <*> Fields.nullable ["column"] Decoder.int
      <*> Fields.nullable ["suggestion"] Decoder.text
      <*> Fields.withDefault ["severity"] .warning Severity.decode

/-- Write a diagnostic with all its fields. -/
def encode (diagnostic : Diagnostic) : Value :=
  .obj [("category", .str diagnostic.category.name), ("message", .str diagnostic.message),
    ("file", .str diagnostic.file), ("line", encodeInt? diagnostic.line),
    ("column", encodeInt? diagnostic.column), ("suggestion", .ofString? diagnostic.suggestion),
    ("severity", .str diagnostic.severity.name)]

def Key.encode (key : Key) : Value :=
  .arr [.str key.category.name, .str key.file, encodeInt? key.line, encodeInt? key.column,
    .str key.message]

end Diagnostic

end Wiring
