import Wiring.Binary64.Shortest
import Wiring.Text.Blank
import Wiring.Text.DecimalDigit
import Wiring.Text.Numeral

/-! # Time budgets

A budget in milliseconds may be given as text: a decimal with digits of any script, single
underscores between digits, perhaps an exponent, or a word for infinity or for no number.
-/

namespace Wiring.Budget

/-- A character with a decimal digit of any script replaced by that of ASCII. -/
def plainDigit (c : Char) : Char :=
  match Text.decimalDigit? c with
  | some value => Char.ofNat ('0'.toNat + value)
  | none => c

/-- Digits in groups, or none at all. -/
def digits? (cs : List Char) : Option (List Char) :=
  if cs.isEmpty then some [] else Text.ungroup? cs

/-- The exponent after its mark: a sign perhaps, and digits. -/
def exponent? (cs : List Char) : Option Int :=
  match cs with
  | '+' :: rest => (Text.ungroup? rest).map fun digits => Nat.ofDigitChars 10 digits 0
  | '-' :: rest => (Text.ungroup? rest).map fun digits => -Nat.ofDigitChars 10 digits 0
  | rest => (Text.ungroup? rest).map fun digits => Nat.ofDigitChars 10 digits 0

/-- An unsigned decimal. It has a digit before or after the point. -/
def decimal? (negative : Bool) (cs : List Char) : Option Binary64 := do
  let isMark := fun c => c == 'e' || c == 'E'
  let mantissa := cs.takeWhile fun c => !isMark c
  let exponent ←
    match cs.dropWhile fun c => !isMark c with
    | [] => some 0
    | _ :: rest => exponent? rest
  let whole ← digits? (mantissa.takeWhile (· != '.'))
  let fraction ← digits? ((mantissa.dropWhile (· != '.')).drop 1)
  if whole.isEmpty && fraction.isEmpty then none
  else
    return .ofDecimal negative (Nat.ofDigitChars 10 (whole ++ fraction) 0)
      (exponent - fraction.length)

def unsigned? (negative : Bool) (cs : List Char) : Option Binary64 :=
  let word := String.ofList (cs.map Char.toLower)
  if word = "inf" ∨ word = "infinity" then some (.infinite negative)
  else if word = "nan" then some .nan
  else decimal? negative cs

/-- The number that a text stands for, white space around it apart. -/
def number? (written : String) : Option Binary64 :=
  match (Text.trimChars Text.isWhiteSpace written.toList).map plainDigit with
  | '+' :: rest => unsigned? false rest
  | '-' :: rest => unsigned? true rest
  | rest => unsigned? false rest

/-- A default that is larger than every binary64 number. -/
inductive DefaultFault where
  | tooLarge
deriving DecidableEq, Repr

def DefaultFault.message : DefaultFault → String
  | tooLarge => "int too large to convert to float"

/-- The budget given as text, or the default if none is given or it is no number. The default has
to be a binary64 number also where it is not used. -/
def ofText (written : Option String) (default : Int) : Except DefaultFault Binary64 :=
  let default := Binary64.ofInt default
  if default.isFinite then .ok ((written.bind number?).getD default) else .error .tooLarge

end Wiring.Budget
