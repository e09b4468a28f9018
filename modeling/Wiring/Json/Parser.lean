import Wiring.Json.Value

/-! # Reading JSON text

The reader consumes a list of characters and returns the rest. A refusal carries what was expected
and the rest it was expected at, from which the position follows once the whole text is known.
Besides standard JSON the words `NaN`, `Infinity` and `-Infinity` are numbers, and a repeated key
gives its first member the later value. A reader may have limits: on the digits of an integer, and
on how deep arrays and objects are nested. The recursion is over a bound on the number of calls,
which twice the length of the text meets.
-/

namespace Wiring.Json

/-- What a text lacks to be JSON. -/
inductive Complaint where
  | byteOrderMark
  | value
  | extraData
  | propertyName
  | colon
  | comma
  | unterminated
  | controlCharacter
  | escape
  | unicodeEscape
  | tooManyDigits (count : Nat)
  | tooDeep (container : String)
deriving DecidableEq, Repr

namespace Complaint

def message : Complaint → String
  | byteOrderMark => "Unexpected UTF-8 BOM (decode using utf-8-sig)"
  | value => "Expecting value"
  | extraData => "Extra data"
  | propertyName => "Expecting property name enclosed in double quotes"
  | colon => "Expecting ':' delimiter"
  | comma => "Expecting ',' delimiter"
  | unterminated => "Unterminated string starting at"
  | controlCharacter => "Invalid control character at"
  | escape => "Invalid \\escape"
  | unicodeEscape => "Invalid \\uXXXX escape"
  | tooManyDigits count => s!"Integer of {count} digits"
  | tooDeep container => s!"Nested too deep for this {container}"

end Complaint

/-- What a reader does not take on: integers of more digits, and arrays and objects nested
deeper. -/
structure Limits where
  digits : Option Nat
  depth : Option Nat
deriving DecidableEq, Repr

namespace Limits

def free : Limits := ⟨none, none⟩

/-- The limits inside an array or object, unless it is nested too deep itself. -/
def inner? (limits : Limits) : Option Limits :=
  match limits.depth with
  | none => some limits
  | some 0 => none
  | some (depth + 1) => some { limits with depth := some depth }

end Limits

/-- A complaint and the part of the text from which on it holds. -/
structure Refusal where
  complaint : Complaint
  rest : List Char
deriving DecidableEq, Repr

/-- Refuse the text at `rest`. -/
def refuse {α : Type} (complaint : Complaint) (rest : List Char) : Except Refusal α :=
  .error ⟨complaint, rest⟩

def isSpace (c : Char) : Bool :=
  c == ' ' || c == '\t' || c == '\n' || c == '\r'

def skip (cs : List Char) : List Char := cs.dropWhile isSpace

/-- The value of a hexadecimal digit. -/
def hexDigit? (c : Char) : Option Nat :=
  if '0' ≤ c ∧ c ≤ '9' then some (c.toNat - '0'.toNat)
  else if 'a' ≤ c ∧ c ≤ 'f' then some (c.toNat - 'a'.toNat + 10)
  else if 'A' ≤ c ∧ c ≤ 'F' then some (c.toNat - 'A'.toNat + 10)
  else none

def hexFour? (a b c d : Char) : Option Nat := do
  let a ← hexDigit? a
  let b ← hexDigit? b
  let c ← hexDigit? c
  let d ← hexDigit? d
  return ((a * 16 + b) * 16 + c) * 16 + d

/-- The character that a one-letter escape stands for. -/
def simpleEscape? (c : Char) : Option Char :=
  if c = '"' then some '"'
  else if c = '\\' then some '\\'
  else if c = '/' then some '/'
  else if c = 'b' then some '\x08'
  else if c = 'f' then some '\x0c'
  else if c = 'n' then some '\n'
  else if c = 'r' then some '\r'
  else if c = 't' then some '\t'
  else none

/-- The code units of a string up to its closing quote; `opening` is the text from its opening
quote on. A unit is a code point, or half of a surrogate pair. -/
def readUnits (opening : List Char) (units : List Nat) :
    List Char → Except Refusal (List Nat × List Char)
  | [] => refuse .unterminated opening
  | '"' :: rest => .ok (units.reverse, rest)
  | '\\' :: 'u' :: a :: b :: c :: d :: e :: rest =>
    match hexFour? a b c d with
    | some unit => readUnits opening (unit :: units) (e :: rest)
    | none => refuse .unicodeEscape ('u' :: a :: b :: c :: d :: e :: rest)
  | '\\' :: 'u' :: rest => refuse .unicodeEscape ('u' :: rest)
  | ['\\'] => refuse .unterminated opening
  | '\\' :: c :: rest =>
    match simpleEscape? c with
    | some plain => readUnits opening (plain.toNat :: units) rest
    | none => refuse .escape ('\\' :: c :: rest)
  | c :: rest =>
    if c.toNat < 0x20 then refuse .controlCharacter (c :: rest)
    else readUnits opening (c.toNat :: units) rest

/-- The code points that code units stand for: two halves of a surrogate pair are one. -/
def joinUnits : List Nat → List Nat
  | [] => []
  | [unit] => [unit]
  | high :: low :: rest =>
    if 0xD800 ≤ high ∧ high < 0xDC00 ∧ 0xDC00 ≤ low ∧ low < 0xE000 then
      (0x10000 + (high - 0xD800) * 0x400 + (low - 0xDC00)) :: joinUnits rest
    else high :: joinUnits (low :: rest)

/-- The code points of the string whose opening quote is the head of `opening` and whose body is
`body`. -/
def readString (opening body : List Char) : Except Refusal (List Nat × List Char) := do
  let (units, rest) ← readUnits opening [] body
  return (joinUnits units, rest)

/-- The digits that a text starts with, and what follows. -/
def spanDigits (cs : List Char) : List Char × List Char :=
  (cs.takeWhile Char.isDigit, cs.dropWhile Char.isDigit)

/-- The whole part of a number: a zero, or digits that start with none. -/
def readWhole? (cs : List Char) : Option (List Char × List Char) :=
  match cs with
  | '0' :: rest => some (['0'], rest)
  | c :: _ => if c.isDigit then some (spanDigits cs) else none
  | [] => none

/-- The fraction of a number, empty unless a point and a digit follow. -/
def readFraction (cs : List Char) : List Char × List Char :=
  match cs with
  | '.' :: rest => if (spanDigits rest).1.isEmpty then ([], cs) else spanDigits rest
  | _ => ([], cs)

/-- The digits after an exponent mark and sign, if there are any. -/
def readExponentDigits? (negative : Bool) (cs : List Char) : Option (Int × List Char) :=
  let (digits, rest) := spanDigits cs
  if digits.isEmpty then none
  else
    let magnitude : Int := Nat.ofDigitChars 10 digits 0
    some (if negative then -magnitude else magnitude, rest)

/-- The exponent of a number, if there is one. -/
def readExponent? (cs : List Char) : Option (Int × List Char) :=
  match cs with
  | mark :: rest =>
    if mark = 'e' ∨ mark = 'E' then
      match rest with
      | '+' :: rest => readExponentDigits? false rest
      | '-' :: rest => readExponentDigits? true rest
      | _ => readExponentDigits? false rest
    else none
  | [] => none

/-- The longest number that an unsigned text starts with. It is an integer if it has neither a
fraction nor an exponent. -/
def readUnsigned? (negative : Bool) (cs : List Char) : Option (Value × List Char) := do
  let (whole, rest) ← readWhole? cs
  let (fraction, rest) := readFraction rest
  match fraction, readExponent? rest with
  | [], none =>
    let magnitude : Int := Nat.ofDigitChars 10 whole 0
    return (.int (if negative then -magnitude else magnitude), rest)
  | _, none =>
    return (.float (.ofDecimal negative (Nat.ofDigitChars 10 (whole ++ fraction) 0)
      (-fraction.length)), rest)
  | _, some (exponent, rest) =>
    return (.float (.ofDecimal negative (Nat.ofDigitChars 10 (whole ++ fraction) 0)
      (exponent - fraction.length)), rest)

def readNumber? : List Char → Option (Value × List Char)
  | '-' :: rest => readUnsigned? true rest
  | cs => readUnsigned? false cs

/-- The word value that a text starts with. -/
def readWord? : List Char → Option (Value × List Char)
  | 'n' :: 'u' :: 'l' :: 'l' :: rest => some (.null, rest)
  | 't' :: 'r' :: 'u' :: 'e' :: rest => some (.bool true, rest)
  | 'f' :: 'a' :: 'l' :: 's' :: 'e' :: rest => some (.bool false, rest)
  | 'N' :: 'a' :: 'N' :: rest => some (.float .nan, rest)
  | 'I' :: 'n' :: 'f' :: 'i' :: 'n' :: 'i' :: 't' :: 'y' :: rest =>
    some (.float (.infinite false), rest)
  | '-' :: 'I' :: 'n' :: 'f' :: 'i' :: 'n' :: 'i' :: 't' :: 'y' :: rest =>
    some (.float (.infinite true), rest)
  | _ => none

/-- How many digits the whole part of a number has, its sign apart. -/
def wholeDigits (cs : List Char) : Nat :=
  ((readWhole? (if cs.head? = some '-' then cs.drop 1 else cs)).map (·.1.length)).getD 0

/-- The number that a text starts with. An integer may have at most `limit` digits, if there is a
limit. -/
def readLimited? (limit : Option Nat) (cs : List Char) :
    Option (Except Refusal (Value × List Char)) :=
  match readNumber? cs, limit with
  | some (.int n, rest), some limit =>
    if limit < wholeDigits cs then some (refuse (.tooManyDigits (wholeDigits cs)) cs)
    else some (.ok (.int n, rest))
  | some result, _ => some (.ok result)
  | none, _ => none

/-- The word or number that a text starts with. -/
def readScalar (limit : Option Nat) (cs : List Char) : Except Refusal (Value × List Char) :=
  match readWord? cs with
  | some result => .ok result
  | none =>
    match readLimited? limit cs with
    | some result => result
    | none => refuse .value cs

/-- Read what is inside an array or object, unless it is nested too deep. -/
def enter {α : Type} (limits : Limits) (container : String) (cs : List Char)
    (read : Limits → Except Refusal α) : Except Refusal α :=
  match limits.inner? with
  | none => refuse (.tooDeep container) cs
  | some inside => read inside

@[simp] theorem enter_free {α : Type} (container : String) (cs : List Char)
    (read : Limits → Except Refusal α) : enter .free container cs read = read .free := rfl

mutual

/-- One value at the start of the text. -/
def readValue (limits : Limits) : Nat → List Char → Except Refusal (Value × List Char)
  | 0, cs => refuse .value cs
  | bound + 1, cs =>
    match cs with
    | '"' :: body => do
      let (points, rest) ← readString cs body
      return (.ofPoints points, rest)
    | '[' :: rest =>
      enter limits "array" cs fun limits =>
        match skip rest with
        | ']' :: rest => .ok (.arr [], rest)
        | rest => readItems limits bound [] rest
    | '\x7b' :: rest =>
      enter limits "object" cs fun limits =>
        match skip rest with
        | '\x7d' :: rest => .ok (.obj [], rest)
        | rest => readMembers limits bound false [] rest
    | _ => readScalar limits.digits cs

/-- The items of an array from the next one on; `items` holds those before it in reverse. -/
def readItems (limits : Limits) :
    Nat → List Value → List Char → Except Refusal (Value × List Char)
  | 0, _, cs => refuse .value cs
  | bound + 1, items, cs => do
    let (value, rest) ← readValue limits bound cs
    match skip rest with
    | ']' :: rest => return (.arr (value :: items).reverse, rest)
    | ',' :: rest => readItems limits bound (value :: items) (skip rest)
    | rest => refuse .comma rest

/-- The members of an object from the next one on; `members` holds those before it, and `keyTorn`
tells whether a key among them is torn. -/
def readMembers (limits : Limits) :
    Nat → Bool → List (String × Value) → List Char → Except Refusal (Value × List Char)
  | 0, _, _, cs => refuse .propertyName cs
  | bound + 1, keyTorn, members, cs =>
    match cs with
    | '"' :: body => do
      let (points, rest) ← readString cs body
      let keyTorn := keyTorn || !isText points
      match skip rest with
      | ':' :: rest =>
        let (value, rest) ← readValue limits bound (skip rest)
        let members := upsert members (mend points) value
        match skip rest with
        | '\x7d' :: rest => return (.ofMembers keyTorn members, rest)
        | ',' :: rest => readMembers limits bound keyTorn members (skip rest)
        | rest => refuse .comma rest
      | rest => refuse .colon rest
    | _ => refuse .propertyName cs

end

def readText (limits : Limits) (cs : List Char) : Except Refusal Value :=
  match cs with
  | '\ufeff' :: _ => refuse .byteOrderMark cs
  | _ => do
    let (value, rest) ← readValue limits (2 * cs.length + 2) (skip cs)
    match skip rest with
    | [] => return value
    | rest => refuse .extraData rest

/-- Why and where a text is not JSON; lines and columns count from one. -/
structure SyntaxFault where
  complaint : Complaint
  line : Nat
  column : Nat
  position : Nat
deriving DecidableEq, Repr

namespace SyntaxFault

/-- Locate a refusal in the text it is about. -/
def ofRefusal (text : List Char) (refusal : Refusal) : SyntaxFault :=
  let before := text.take (text.length - refusal.rest.length)
  { complaint := refusal.complaint
    line := before.count '\n' + 1
    column := (before.reverse.takeWhile (· != '\n')).length + 1
    position := before.length }

/-- The complaint with its place. -/
def message (fault : SyntaxFault) : String :=
  s!"{fault.complaint.message}: line {fault.line} column {fault.column} (char {fault.position})"

end SyntaxFault

/-- Read a text as one JSON value within limits. -/
def parseLimited (limits : Limits) (text : String) : Except SyntaxFault Value :=
  (readText limits text.toList).mapError (SyntaxFault.ofRefusal text.toList)

def parse (text : String) : Except SyntaxFault Value := parseLimited .free text

end Wiring.Json
