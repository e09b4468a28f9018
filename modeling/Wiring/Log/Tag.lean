import Wiring.Json.Printer
import Wiring.Text.Quoted

/-! # Log tags

A tag says what an event is filed under. Mostly it is a word, but a number or any other value can
stand in its place. Events are counted by their tags: tags that are the same number are one, however
it is written, and a list or a record cannot be counted by.
-/

namespace Wiring.Log

open Json (Value)

/-- Whether a value says nothing: null, false, zero, or without content. -/
def isVoid : Value → Bool
  | .null | .bool false | .str "" | .arr [] | .obj [] => true
  | .int n => n == 0
  | .float x => x.toInt? == some 0
  | _ => false

/-- What an event is filed under. -/
inductive Tag where
  | word (text : String)
  | truth
  | int (value : Int)
  | float (value : Binary64)
  | list (items : List Value)
  | record (members : List (String × Value))

namespace Tag

/-- The tag of events that are filed under nothing. -/
def unfiled : Tag := word "-"

/-- The tag that a value makes. -/
def ofValue (value : Value) : Tag :=
  if isVoid value then unfiled
  else
    match value with
    | .null => unfiled
    | .bool _ => truth
    | .int n => int n
    | .float x => float x
    | .str text => word text
    | .torn points => word (Json.mend points)
    | .arr items => list items
    | .obj members | .tornObj members => record members

/-- A tag as log lines show it. -/
def text : Tag → String
  | word text => text
  | truth => Text.spelled (.bool true)
  | int n => Text.spelled (.int n)
  | float x => Text.spelled (.float x)
  | list items => Text.spelled (.arr items)
  | record members => Text.spelled (.obj members)

/-- The integer that a tag equals, if it equals one. -/
def integer? : Tag → Option Int
  | truth => some 1
  | int n => some n
  | float x => x.toInt?
  | _ => none

/-- Why events with a tag cannot be counted. -/
inductive CountFault where
  | listTag
  | recordTag
deriving DecidableEq, Repr

def CountFault.message : CountFault → String
  | listTag => "unhashable type: 'list'"
  | recordTag => "unhashable type: 'dict'"

/-- What keeps events with a tag from being counted, if anything does. -/
def countFault? : Tag → Option CountFault
  | list _ => some .listTag
  | record _ => some .recordTag
  | _ => none

/-- Whether two tags are counted as one: equal words, or equal numbers. -/
def agrees (left right : Tag) : Bool :=
  match left, right with
  | word a, word b => a == b
  | float a, float b => a == b || (a.toInt?.isSome && a.toInt? == b.toInt?)
  | a, b => a.integer?.isSome && a.integer? == b.integer?

/-- The key of a tag in a table of counts: what JSON writes for it. -/
def label : Tag → String
  | word text => text
  | truth => Json.compact (.bool true)
  | int n => Json.compact (.int n)
  | float x => Json.compact (.float x)
  | list items => Json.compact (.arr items)
  | record members => Json.compact (.obj members)

end Tag

end Wiring.Log
