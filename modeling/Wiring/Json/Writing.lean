import Wiring.Json.Value
import Wiring.Text.Blank

/-! # Strings as they are read

A string that was read is a text, or torn. Where any string will do a torn one is kept as it is, and
it is trimmed like a text; what it is told by is its mended text.
-/

namespace Wiring.Json

/-- A string as it is read. -/
inductive Writing where
  | whole (text : String)
  | torn (points : List Nat)
deriving DecidableEq, Repr

namespace Writing

/-- The text of a string, mended if it is torn. -/
def text : Writing → String
  | whole text => text
  | torn points => mend points

@[simp] theorem text_whole (written : String) : (whole written).text = written := rfl

def isTorn : Writing → Bool
  | whole _ => false
  | torn _ => true

def value : Writing → Value
  | whole text => .str text
  | torn points => .torn points

def isBlankPoint (point : Nat) : Bool :=
  decide point.isValidChar && Text.isBlank (Char.ofNat point)

/-- The trimmed string, unless nothing is left of it. -/
def nonBlank? : Writing → Option Writing
  | whole text => (Text.nonBlank? text).map whole
  | torn points =>
    let trimmed := Text.trimChars isBlankPoint points
    if trimmed.isEmpty then none else some (torn trimmed)

end Writing

/-- A string, or null in its absence. -/
def Value.ofWriting? : Option Writing → Value
  | some writing => writing.value
  | none => null

end Wiring.Json
