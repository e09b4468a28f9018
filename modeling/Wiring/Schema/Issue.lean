/-! # Validation issues

An issue says what is wrong with a part of a value and on which path the part lies. Its code and
its wording are functions of what is wrong.
-/

namespace Wiring.Schema

/-- A step from a value to one of its parts. -/
inductive Step where
  | key (name : String)
  | index (position : Nat)
deriving DecidableEq, Repr

/-- What is wrong with a value. -/
inductive Problem where
  | notRecord (model : String)
  | missing
  | unknownKey
  | notText
  | emptyText
  | notUnicode
  | notList
  | notOneOf (choices : List String)
  | notMember (choices : List String)
  | notBool
  | unclearBool
  | notInt
  | unclearInt
  | notFinite
  | fractional
  | outOfRange
  | belowOne
  | broken (rule : String)
deriving DecidableEq, Repr

namespace Problem

def code : Problem → String
  | notRecord _ => "model_type"
  | missing => "missing"
  | unknownKey => "extra_forbidden"
  | notText => "string_type"
  | emptyText => "string_too_short"
  | notUnicode => "string_unicode"
  | notList => "list_type"
  | notOneOf _ => "literal_error"
  | notMember _ => "enum"
  | notBool => "bool_type"
  | unclearBool => "bool_parsing"
  | notInt => "int_type"
  | unclearInt => "int_parsing"
  | notFinite => "finite_number"
  | fractional => "int_from_float"
  | outOfRange => "int_parsing_size"
  | belowOne => "greater_than_equal"
  | broken _ => "value_error"

/-- Choices in quotes, with commas between them and a word before the last. -/
def listed : List String → String
  | [] => ""
  | [only] => s!"'{only}'"
  | [first, last] => s!"'{first}' or '{last}'"
  | first :: rest => s!"'{first}', " ++ listed rest

def message : Problem → String
  | notRecord model => s!"Input should be a valid dictionary or instance of {model}"
  | missing => "Field required"
  | unknownKey => "Extra inputs are not permitted"
  | notText => "Input should be a valid string"
  | emptyText => "String should have at least 1 character"
  | notUnicode =>
    "Input should be a valid string, unable to parse raw data as a unicode string"
  | notList => "Input should be a valid list"
  | notOneOf choices | notMember choices => "Input should be " ++ listed choices
  | notBool => "Input should be a valid boolean"
  | unclearBool => "Input should be a valid boolean, unable to interpret input"
  | notInt => "Input should be a valid integer"
  | unclearInt => "Input should be a valid integer, unable to parse string as an integer"
  | notFinite => "Input should be a finite number"
  | fractional => "Input should be a valid integer, got a number with a fractional part"
  | outOfRange => "Unable to parse input string as an integer, exceeded maximum size"
  | belowOne => "Input should be greater than or equal to 1"
  | broken rule => "Value error, " ++ rule

end Problem

/-- A problem and the path to the part that has it. -/
structure Issue where
  problem : Problem
  path : List Step
deriving DecidableEq, Repr

/-- The issues of a value that should have been of a model. -/
structure Invalid where
  model : String
  issues : List Issue
deriving DecidableEq, Repr

namespace Invalid

/-- How many issues there are, and of which model. -/
def message (invalid : Invalid) : String :=
  let count := invalid.issues.length
  let noun := if count = 1 then "error" else "errors"
  s!"{count} validation {noun} for {invalid.model}"

end Invalid

end Wiring.Schema
