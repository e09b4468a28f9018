import Wiring.Graph.Restrict
import Wiring.Text.Blank

/-! # Configuration of an analysis -/

namespace Wiring

open Schema
open Json (Value)

/-- Which part of the graph is wanted, and whether its edges show flags. No entries stand for the
whole graph. -/
structure Config where
  direction : Direction
  entries : List String
  includeFlags : Bool
deriving DecidableEq, Repr

namespace Config

/-- The whole graph, without flags. -/
def standard : Config := ⟨.downstream, [], false⟩

def directions : List Direction := [.downstream, .upstream, .both]

def decodeDirection : Decoder Direction :=
  Decoder.oneOf .notOneOf (directions.map fun direction => (direction.word, direction))

/-- Add an id at the end, unless it is there. -/
def addEntry (entries : List String) (entry : String) : List String :=
  if entry ∈ entries then entries else entries ++ [entry]

/-- Entries trimmed and without repetition. None of them may be blank. -/
def entriesOf (written : List String) : Except Problem (List String) := do
  let trimmed ← written.mapM fun entry =>
    match Text.nonBlank? entry with
    | some entry => Except.ok entry
    | none => Except.error (.broken "Entry ids must be non-empty strings")
  return trimmed.foldl addEntry []

def decode : Decoder Config :=
  record "GraphConfig" <|
    Config.mk <$> Fields.withDefault ["direction"] .downstream decodeDirection
      <*> Fields.withDefault ["entry"] []
        ((Decoder.list Decoder.text).nullable.refine fun entries => entriesOf (entries.getD []))
      <*> Fields.withDefault ["includeDecorators", "include_decorators"] false Decoder.bool

/-- The entries as a list, or null if there are none. -/
def encodeEntries (config : Config) : Value :=
  if config.entries.isEmpty then .null else .ofStrings config.entries

def encode (config : Config) : Value :=
  .obj [("direction", .str config.direction.word), ("entry", config.encodeEntries),
    ("includeDecorators", .bool config.includeFlags)]

end Config

end Wiring
