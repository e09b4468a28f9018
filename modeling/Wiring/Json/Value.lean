import Wiring.Binary64.Basic

/-! # JSON values

An object keeps its members in order. Integers are exact and apart from floating-point numbers,
since validation and printing tell `3` from `3.0`. A string may be torn: an escape can put half of a
surrogate pair into it, which is no character. Torn strings, and objects with a torn key, are kept
apart, so that all other strings are texts.
-/

namespace Wiring.Json

/-- Whether code points are all characters. -/
def isText (points : List Nat) : Bool := points.all fun point => decide point.isValidChar

/-- The text of code points, with the replacement character for those that are no characters. -/
def mend (points : List Nat) : String :=
  String.ofList
    (points.map fun point => if point.isValidChar then Char.ofNat point else '\ufffd')

/-- A JSON value. The keys of a torn object are mended. -/
inductive Value where
  | null
  | bool (value : Bool)
  | int (value : Int)
  | float (value : Binary64)
  | str (value : String)
  | torn (points : List Nat)
  | arr (items : List Value)
  | obj (members : List (String × Value))
  | tornObj (members : List (String × Value))
deriving Repr, BEq

def lookup? (members : List (String × Value)) (key : String) : Option Value :=
  (members.find? (·.1 == key)).map (·.2)

/-- Give a key its value: in place if the key is there, and as a new last member if not. -/
def upsert (members : List (String × Value)) (key : String) (value : Value) :
    List (String × Value) :=
  match members with
  | [] => [(key, value)]
  | (k, v) :: rest => if k = key then (key, value) :: rest else (k, v) :: upsert rest key value

namespace Value

/-- The string with the given code points. -/
def ofPoints (points : List Nat) : Value := if isText points then str (mend points) else torn points

/-- The object with the given members, of which some key may be torn. -/
def ofMembers (keyTorn : Bool) (members : List (String × Value)) : Value :=
  if keyTorn then tornObj members else obj members

/-- A text, or null in its absence. -/
def ofString? : Option String → Value
  | some s => str s
  | none => null

/-- A truth value, or null in its absence. -/
def ofBool? : Option Bool → Value
  | some b => bool b
  | none => null

def ofNat (n : Nat) : Value := int n

def ofStrings (texts : List String) : Value := arr (texts.map str)

end Value

end Wiring.Json
