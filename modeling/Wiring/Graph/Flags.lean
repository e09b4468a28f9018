import Wiring.Schema.Decode

/-! # Qualifier flags

Each of the four flags is unset, false or true. Flags from several sources are joined field by
field: true wins over false, and false over unset.
-/

namespace Wiring

/-- The qualifiers of one dependency. An absent value was never asserted. -/
structure Flags where
  optional : Option Bool
  self : Option Bool
  skipSelf : Option Bool
  host : Option Bool
deriving DecidableEq, Repr

namespace Flags

open Schema
open Json (Value)

def unset : Flags := ⟨none, none, none, none⟩

def isEmpty (flags : Flags) : Bool :=
  flags.optional.isNone && flags.self.isNone && flags.skipSelf.isNone && flags.host.isNone

/-- The stronger of two values of a flag. -/
def join : Option Bool → Option Bool → Option Bool
  | some true, _ => some true
  | _, some true => some true
  | some false, _ => some false
  | _, some false => some false
  | none, none => none

/-- Two records joined field by field. -/
def merge (a b : Flags) : Flags where
  optional := join a.optional b.optional
  self := join a.self b.self
  skipSelf := join a.skipSelf b.skipSelf
  host := join a.host b.host

/-- All records that are there joined field by field; absent if nothing is asserted. -/
def mergeAll (sources : List (Option Flags)) : Option Flags :=
  match sources.filterMap id with
  | [] => none
  | first :: rest =>
    let merged := rest.foldl merge first
    if merged.isEmpty then none else some merged

/-- The flags with their names, in their fixed order. -/
def fields (flags : Flags) : List (String × Option Bool) :=
  [("optional", flags.optional), ("self", flags.self), ("skipSelf", flags.skipSelf),
    ("host", flags.host)]

/-- The asserted flags with their names. -/
def asserted (flags : Flags) : List (String × Bool) :=
  flags.fields.filterMap fun field => field.2.map fun value => (field.1, value)

def decode (model : String) : Decoder Flags :=
  record model <|
    Flags.mk <$> Fields.nullable ["optional"] Decoder.bool
      <*> Fields.nullable ["self", "self_"] Decoder.bool
      <*> Fields.nullable ["skipSelf", "skip_self"] Decoder.bool
      <*> Fields.nullable ["host"] Decoder.bool

/-- Write flags with all their fields. -/
def encode (flags : Flags) : Value :=
  .obj (flags.fields.map fun field => (field.1, .ofBool? field.2))

/-- Write the asserted flags only. -/
def encodeAsserted (flags : Flags) : Value :=
  .obj (flags.asserted.map fun field => (field.1, .bool field.2))

end Flags

end Wiring
