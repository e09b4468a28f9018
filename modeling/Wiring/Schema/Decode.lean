import Wiring.Json.Writing
import Wiring.Schema.Issue
import Wiring.Text.Integer

/-! # Decoding JSON values

A decoder gives a typed value or all issues of the JSON value at once. Records are read by an
applicative that gathers the issues of the fields in their order and remembers the keys that were
found; every other key of the object is an issue after those. Scalars are read leniently: numbers
and words for truth values, and texts or whole floating-point numbers for integers. A torn string
will do where any string does; where a string is looked into, and as a key of a record, it is an
issue.
-/

namespace Wiring.Schema

open Json (Value Writing)

/-- A value, or the issues that stand in its way. -/
abbrev Checked (α : Type) := Except (List Issue) α

namespace Checked

/-- A single issue at the value itself. -/
def fail {α : Type} (problem : Problem) : Checked α := .error [⟨problem, []⟩]

/-- The same outcome seen from the value that holds this one. -/
def within {α : Type} (step : Step) : Checked α → Checked α
  | .ok value => .ok value
  | .error issues => .error (issues.map fun issue => { issue with path := step :: issue.path })

/-- Both outcomes, with the issues of both. -/
def both {α β γ : Type} (combine : α → β → γ) : Checked α → Checked β → Checked γ
  | .ok a, .ok b => .ok (combine a b)
  | .ok _, .error right => .error right
  | .error left, .ok _ => .error left
  | .error left, .error right => .error (left ++ right)

/-- Name the model that was to be decoded. -/
def forModel {α : Type} (model : String) : Checked α → Except Invalid α
  | .ok value => .ok value
  | .error issues => .error ⟨model, issues⟩

end Checked

abbrev Decoder (α : Type) := Value → Checked α

namespace Decoder

/-- Decode, then apply a rule that may refuse the result. -/
def refine {α β : Type} (decode : Decoder α) (rule : α → Except Problem β) : Decoder β :=
  fun value =>
    match decode value with
    | .error issues => .error issues
    | .ok a =>
      match rule a with
      | .ok b => .ok b
      | .error problem => .error [⟨problem, []⟩]

/-- Null, or what the decoder reads. -/
def nullable {α : Type} (decode : Decoder α) : Decoder (Option α)
  | .null => .ok none
  | value => (decode value).map some

/-- A string, torn or not. -/
def writing : Decoder Writing
  | .str s => .ok (.whole s)
  | .torn points => .ok (.torn points)
  | _ => Checked.fail .notText

/-- A string of which only the text counts. A torn one is mended. -/
def text : Decoder String
  | .str s => .ok s
  | .torn points => .ok (Json.mend points)
  | _ => Checked.fail .notText

/-- A text of at least one character. -/
def nonEmptyText : Decoder String
  | .str s => if s = "" then Checked.fail .emptyText else .ok s
  | .torn _ => Checked.fail .notUnicode
  | _ => Checked.fail .notText

/-- The least integer too large for 64 bits with a sign. -/
def wordBound : Int := 9223372036854775808

/-- Whether an integer fits into 64 bits with a sign. -/
def isWord (n : Int) : Bool := -wordBound ≤ n && n < wordBound

/-- Whether an integer lies strictly inside the range of 64 bits with a sign. -/
def isInnerWord (n : Int) : Bool := -wordBound < n && n < wordBound

/-- The words for true and for false, whatever their case. -/
def boolWord? (s : String) : Option Bool :=
  let word := String.ofList (s.toList.map Char.toLower)
  if word ∈ ["1", "t", "true", "y", "yes", "on"] then some true
  else if word ∈ ["0", "f", "false", "n", "no", "off"] then some false
  else none

/-- A truth value: itself, the numbers zero and one, or a word for it. -/
def bool : Decoder Bool
  | .bool b => .ok b
  | .int n =>
    if n = 0 then .ok false
    else if n = 1 then .ok true
    else if isWord n then Checked.fail .unclearBool
    else Checked.fail .notBool
  | .float x =>
    match x.toInt? with
    | some n =>
      if n = 0 then .ok false
      else if n = 1 then .ok true
      else if isInnerWord n then Checked.fail .unclearBool
      else Checked.fail .notBool
    | none => Checked.fail .notBool
  | .str s =>
    match boolWord? s with
    | some b => .ok b
    | none => Checked.fail .unclearBool
  | .torn _ => Checked.fail .notUnicode
  | _ => Checked.fail .notBool

/-- An integer: itself, a truth value, a whole floating-point number, or a text. -/
def int : Decoder Int
  | .int n => .ok n
  | .bool b => .ok (if b then 1 else 0)
  | .float x =>
    if !x.isFinite then Checked.fail .notFinite
    else
      match x.toInt? with
      | none => Checked.fail .fractional
      | some n => if isInnerWord n then .ok n else Checked.fail .outOfRange
  | .str s =>
    match Text.readInteger s with
    | .ok n => .ok n
    | .error .unclear => Checked.fail .unclearInt
    | .error .tooLong => Checked.fail .outOfRange
  | .torn _ => Checked.fail .notUnicode
  | _ => Checked.fail .notInt

/-- A number that counts from one. -/
def ordinal : Decoder Nat :=
  refine int fun n => if n < 1 then .error .belowOne else .ok n.toNat

/-- The items of a list from a position on. -/
def items {α : Type} (decode : Decoder α) : Nat → List Value → Checked (List α)
  | _, [] => .ok []
  | position, value :: rest =>
    Checked.both List.cons ((decode value).within (.index position))
      (items decode (position + 1) rest)

def list {α : Type} (decode : Decoder α) : Decoder (List α)
  | .arr values => items decode 0 values
  | _ => Checked.fail .notList

/-- One of several texts, each standing for a value. -/
def oneOf {α : Type} (problem : List String → Problem) (choices : List (String × α)) : Decoder α
  | .str s =>
    match choices.find? (·.1 == s) with
    | some choice => .ok choice.2
    | none => Checked.fail (problem (choices.map (·.1)))
  | .torn _ => Checked.fail .notUnicode
  | _ => Checked.fail (problem (choices.map (·.1)))

end Decoder

/-- What reading fields of an object gives: the keys that were found, and the outcome. -/
structure Reading (α : Type) where
  used : List String
  outcome : Checked α

/-- A reader of fields of an object. -/
def Fields (α : Type) := List (String × Value) → Reading α

namespace Fields

instance : Applicative Fields where
  pure a := fun _ => ⟨[], .ok a⟩
  seq f x := fun members =>
    let left := f members
    let right := x () members
    ⟨left.used ++ right.used, left.outcome.both (fun g a => g a) right.outcome⟩

/-- The first of several keys that an object has, and its value. -/
def find? (keys : List String) (members : List (String × Value)) : Option (String × Value) :=
  keys.findSome? fun key => (Json.lookup? members key).map fun value => (key, value)

/-- A field that has to be there. Its absence is reported under its first key. -/
def required {α : Type} (keys : List String) (decode : Decoder α) : Fields α := fun members =>
  match find? keys members with
  | some (key, value) => ⟨[key], (decode value).within (.key key)⟩
  | none => ⟨[], .error [⟨.missing, (keys.take 1).map .key⟩]⟩

/-- A field with a value for its absence. -/
def withDefault {α : Type} (keys : List String) (absent : α) (decode : Decoder α) : Fields α :=
  fun members =>
    match find? keys members with
    | some (key, value) => ⟨[key], (decode value).within (.key key)⟩
    | none => ⟨[], .ok absent⟩

/-- A field that may be absent or null. -/
def nullable {α : Type} (keys : List String) (decode : Decoder α) : Fields (Option α) :=
  withDefault keys none decode.nullable

end Fields

/-- An object of a model with exactly the given fields. A torn key is the only issue then. -/
def record {α : Type} (model : String) (fields : Fields α) : Decoder α
  | .obj members =>
    let reading := fields members
    let unknown := members.filter fun member => !reading.used.contains member.1
    match reading.outcome, unknown.map fun member => (⟨.unknownKey, [.key member.1]⟩ : Issue) with
    | .ok value, [] => .ok value
    | .ok _, issues => .error issues
    | .error issues, others => .error (issues ++ others)
  | .tornObj _ => Checked.fail .notUnicode
  | _ => Checked.fail (.notRecord model)

/-- Values of a model decoded one by one; the first that fails gives the outcome. -/
def decodeEach {α : Type} (model : String) (decode : Decoder α) (values : List Value) :
    Except Invalid (List α) :=
  values.mapM fun value => (decode value).forModel model

end Wiring.Schema
