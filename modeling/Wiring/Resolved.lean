import Wiring.Graph.Basic
import Wiring.Location

/-! # Resolved classes

A class whose parameters have been resolved into dependencies on tokens. A token is a text; the name
of a class is kept as it is read, so that a torn one is noticed when a node is made of it.
-/

namespace Wiring.Resolved

open Schema
open Json (Value Writing)

/-- A dependency on a token, through a parameter. -/
structure Dependency where
  token : String
  parameter : String
  flags : Option Flags
deriving DecidableEq, Repr

namespace Dependency

def decode : Decoder Dependency :=
  record "ResolvedDependency" <|
    Dependency.mk <$> Fields.required ["token"] Decoder.nonEmptyText
      <*> Fields.required ["parameterName", "parameter_name"] Decoder.text
      <*> Fields.nullable ["flags"] (Flags.decode "EdgeFlags")

def encode (dependency : Dependency) : Value :=
  .obj [("token", .str dependency.token), ("parameterName", .str dependency.parameter),
    ("flags", (dependency.flags.map Flags.encode).getD .null)]

end Dependency

/-- A class with its dependencies. -/
structure Class (τ : Type := String) where
  name : Option τ
  kind : NodeKind
  file : Option String
  dependencies : List Dependency
  location : Option Location
deriving DecidableEq, Repr

namespace Class

def map {τ σ : Type} (f : τ → σ) (resolved : Class τ) : Class σ where
  name := resolved.name.map f
  kind := resolved.kind
  file := resolved.file
  dependencies := resolved.dependencies
  location := resolved.location

def decode : Decoder (Class Writing) :=
  record "ResolvedClass" <|
    Class.mk <$> Fields.nullable ["name"] Decoder.writing
      <*> Fields.withDefault ["kind"] .unknown NodeKind.decode
      <*> Fields.nullable ["filePath", "file_path"] Decoder.text
      <*> Fields.withDefault ["dependencies"] [] (Decoder.list Dependency.decode)
      <*> Fields.nullable ["location"] Location.decode

def encode (resolved : Class Writing) : Value :=
  .obj [("name", .ofWriting? resolved.name), ("kind", .str resolved.kind.name),
    ("filePath", .ofString? resolved.file),
    ("dependencies", .arr (resolved.dependencies.map Dependency.encode)),
    ("location", (resolved.location.map Location.encode).getD .null)]

end Class

end Wiring.Resolved
