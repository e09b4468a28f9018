import Wiring.Schema.Decode

/-! # Source locations -/

namespace Wiring

/-- A place in a source file. Lines and columns count from one. -/
structure Location where
  line : Nat
  column : Option Nat
deriving DecidableEq, Repr

namespace Location

open Schema
open Json (Value)

def decode : Decoder Location :=
  record "SourceLocation" <|
    Location.mk <$> Fields.required ["line"] Decoder.ordinal
      <*> Fields.nullable ["column"] Decoder.ordinal

/-- Write a location with all its fields. -/
def encode (location : Location) : Value :=
  .obj [("line", .ofNat location.line), ("column", (location.column.map Value.ofNat).getD .null)]

end Location

end Wiring
