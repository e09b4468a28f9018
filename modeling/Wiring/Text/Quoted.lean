import Wiring.Binary64.Shortest
import Wiring.Json.Value
import Wiring.Text.Join
import Wiring.Text.Numeral
import Wiring.Text.Printable

/-! # Values in messages

A text is quoted by apostrophes, or by double quotes if it has apostrophes and no double quotes,
and what cannot be shown is escaped by its code point. Other values are spelled with the words of
the tool's messages.
-/

namespace Wiring.Text

open Json (Value)

/-- A character as it stands between quotes. -/
def quotedChar (quote c : Char) : List Char :=
  if c = quote ∨ c = '\\' then ['\\', c]
  else if c = '\t' then ['\\', 't']
  else if c = '\n' then ['\\', 'n']
  else if c = '\r' then ['\\', 'r']
  else if isPrintable c then [c]
  else if c.toNat < 0x100 then ['\\', 'x'] ++ hexDigits c.toNat 2
  else if c.toNat < 0x10000 then ['\\', 'u'] ++ hexDigits c.toNat 4
  else ['\\', 'U'] ++ hexDigits c.toNat 8

/-- The quote that stands around characters. -/
def quoteFor (cs : List Char) : Char :=
  if cs.contains '\x27' && !cs.contains '"' then '"' else '\x27'

def quoted (s : String) : String :=
  let quote := quoteFor s.toList
  String.ofList ([quote] ++ s.toList.flatMap (quotedChar quote) ++ [quote])

/-- Code points in quotes. One that is no character is escaped like a character that cannot be
shown. -/
def quotedPoints (points : List Nat) : String :=
  let quote := quoteFor (Json.mend points).toList
  let shown := points.flatMap fun point =>
    if point.isValidChar then quotedChar quote (Char.ofNat point)
    else ['\\', 'u'] ++ hexDigits point 4
  String.ofList ([quote] ++ shown ++ [quote])

mutual

/-- A value as messages spell it. -/
def spelled : Value → String
  | .null => "None"
  | .bool true => "True"
  | .bool false => "False"
  | .int n => toString n
  | .float x => x.text
  | .str s => quoted s
  | .torn points => quotedPoints points
  | .arr items => "[" ++ join ", " (spelledItems items) ++ "]"
  | .obj members | .tornObj members => "\x7b" ++ join ", " (spelledMembers members) ++ "\x7d"

def spelledItems : List Value → List String
  | [] => []
  | item :: items => spelled item :: spelledItems items

def spelledMembers : List (String × Value) → List String
  | [] => []
  | (key, value) :: members => (quoted key ++ ": " ++ spelled value) :: spelledMembers members

end

/-- The complaint that a value is not one of a sort of names. -/
def notValid (value : Value) (sort : String) : String :=
  let shown := spelled value
  s!"{shown} is not a valid {sort}"

end Wiring.Text
