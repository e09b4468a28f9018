import Wiring.Text.Blank

/-! # Integers written as text

A plain numeral is a minus sign, perhaps, and decimal digits without a leading zero. A text that is
none is cleaned first: of the white space around it, of a plus sign, of leading zeros, of a fraction
that is zero and of single underscores between its digits. Integers of too many digits are refused.
-/

namespace Wiring.Text

/-- Why a text stands for no integer. -/
inductive IntegerFault where
  | unclear
  | tooLong
deriving DecidableEq, Repr

/-- The most digits that an integer may be written with. -/
def digitLimit : Nat := 4300

def isLeadingDigit (c : Char) : Bool := c.isDigit && c != '0'

/-- The number that digits without a leading zero stand for, if they are not too many. -/
def plainNatural? (cs : List Char) : Option Nat :=
  match cs with
  | ['0'] => some 0
  | c :: rest =>
    if isLeadingDigit c && rest.all Char.isDigit && cs.length ≤ digitLimit then
      some (Nat.ofDigitChars 10 cs 0)
    else none
  | [] => none

/-- The integer that a plain numeral stands for. -/
def plainInteger? : List Char → Option Int
  | '-' :: rest => (plainNatural? rest).map (-↑·)
  | cs => (plainNatural? cs).map (↑·)

/-- Whether a text starts, after a minus sign perhaps, with a plain numeral of too many digits. -/
def isTooLong (cs : List Char) : Bool :=
  let digits := ((if cs.head? = some '-' then cs.drop 1 else cs).takeWhile Char.isDigit)
  (digits.head?.map isLeadingDigit).getD false && digitLimit < digits.length

/-- What is left of a text after zeros and underscores, of which `last` was the last one. A fraction
keeps the character before its point, and so does a text with nothing else. -/
def afterZeros? (last : Char) : List Char → Option (List Char)
  | [] => some [last]
  | c :: rest =>
    if c = '0' ∨ c = '_' then afterZeros? c rest
    else if c = '.' then some (last :: c :: rest)
    else if c = '-' ∨ isLeadingDigit c then some (c :: rest)
    else none

/-- A text that starts with a digit, without leading zeros. -/
def dropZeros? : List Char → Option (List Char)
  | '0' :: rest => afterZeros? '0' rest
  | c :: rest => if isLeadingDigit c then some (c :: rest) else none
  | [] => none

/-- A text without a fraction of nothing but zeros. -/
def dropZeroFraction (cs : List Char) : List Char :=
  let zeros := (cs.dropWhile (· != '.')).drop 1
  if !zeros.isEmpty && zeros.all (· == '0') then cs.takeWhile (· != '.') else cs

/-- Whether two underscores meet. -/
def hasDoubleUnderscore : List Char → Bool
  | '_' :: '_' :: _ => true
  | _ :: rest => hasDoubleUnderscore rest
  | [] => false

/-- A text without its underscores, if each stands alone between other characters. -/
def dropUnderscores (cs : List Char) : List Char :=
  if cs.head? = some '_' ∨ cs.getLast? = some '_' ∨ hasDoubleUnderscore cs then cs
  else cs.filter (· != '_')

/-- The plain form of an unsigned text that starts with a digit. -/
def plainForm? (cs : List Char) : Option (List Char) :=
  (dropZeros? cs).map fun digits => dropUnderscores (dropZeroFraction digits)

/-- The integer that a text stands for, after cleaning. -/
def cleanInteger? (cs : List Char) : Option Int := do
  match trimChars isWhiteSpace cs with
  | '-' :: rest => plainInteger? ('-' :: (← plainForm? rest))
  | '+' :: rest => plainInteger? (← plainForm? rest)
  | rest => plainInteger? (← plainForm? rest)

def readInteger (written : String) : Except IntegerFault Int :=
  if isTooLong written.toList then .error .tooLong
  else
    match cleanInteger? written.toList with
    | some n => .ok n
    | none => .error .unclear

end Wiring.Text
