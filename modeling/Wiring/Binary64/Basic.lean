/-! # Binary64 numbers

The finite numbers are held exactly, as an integer times a power of two, so that reading a
decimal and printing one are statements about natural numbers. A decimal is read to the nearest
number, and a decimal halfway between two of them to the one with the even mantissa.
-/

namespace Wiring

/-- A binary64 number. A finite one stands for `± mantissa * 2 ^ exponent`, where the mantissa has
53 bits unless the exponent is the least one. -/
inductive Binary64 where
  | finite (negative : Bool) (mantissa : Nat) (exponent : Int)
  | infinite (negative : Bool)
  | nan
deriving DecidableEq, Repr

namespace Binary64

/-- Exponent of the smallest positive number. -/
def minExponent : Int := -1074

/-- Exponent of the largest finite numbers. -/
def maxExponent : Int := 971

def zero (negative : Bool) : Binary64 := finite negative 0 minExponent

/-- The quotient rounded to the nearest integer, a half to the even one. -/
def roundDiv (num den : Nat) : Nat :=
  let quotient := num / den
  let twice := 2 * (num % den)
  if twice < den then quotient
  else if den < twice then quotient + 1
  else quotient + quotient % 2

/-- The power of two with an exponent, or one if the exponent is negative. -/
def twoTo (e : Int) : Nat := Nat.pow 2 e.toNat

/-- The power of ten with an exponent, or one if the exponent is negative. -/
def tenTo (e : Int) : Nat := Nat.pow 10 e.toNat

/-- Whether `2 ^ e ≤ num / den`. -/
def powTwoLe (e : Int) (num den : Nat) : Bool := den * twoTo e ≤ num * twoTo (-e)

/-- The number nearest to `± num / den`. -/
def ofRatio (negative : Bool) (num den : Nat) : Binary64 :=
  if num = 0 then zero negative
  else
    let guess : Int := num.log2 - den.log2
    let top := if powTwoLe guess num den then guess else guess - 1
    let unit := max (top - 52) minExponent
    let mantissa := roundDiv (num * twoTo (-unit)) (den * twoTo unit)
    let (mantissa, unit) :=
      if mantissa = twoTo 53 then (twoTo 52, unit + 1) else (mantissa, unit)
    if maxExponent < unit then infinite negative else finite negative mantissa unit

/-- The number nearest to `± digits * 10 ^ exponent`. Decimals far outside the range are settled
by their magnitude alone. -/
def ofDecimal (negative : Bool) (digits : Nat) (exponent : Int) : Binary64 :=
  let magnitude : Int := (Nat.toDigits 10 digits).length + exponent
  if digits = 0 then zero negative
  else if 310 < magnitude then infinite negative
  else if magnitude < -330 then zero negative
  else ofRatio negative (digits * tenTo exponent) (tenTo (-exponent))

/-- The number nearest to an integer. -/
def ofInt (n : Int) : Binary64 :=
  ofDecimal (n < 0) n.natAbs 0

/-- The number nearest to a number taken some times. -/
def times (x : Binary64) (count : Nat) : Binary64 :=
  match x with
  | finite negative mantissa exponent =>
    ofRatio negative (mantissa * count * twoTo exponent) (twoTo (-exponent))
  | other => other

/-- The number nearest to a number rounded to some decimal places, a half going to the even
neighbour. -/
def roundPlaces (x : Binary64) (places : Nat) : Binary64 :=
  match x with
  | finite negative mantissa exponent =>
    ofDecimal negative
      (roundDiv (mantissa * twoTo exponent * tenTo places) (twoTo (-exponent))) (-places)
  | other => other

/-- The integer that a number equals, if it equals one. -/
def toInt? : Binary64 → Option Int
  | finite negative mantissa exponent =>
    let den := twoTo (-exponent)
    let num := mantissa * twoTo exponent
    if num % den = 0 then some (if negative then -(num / den : Nat) else (num / den : Nat))
    else none
  | _ => none

def isFinite : Binary64 → Bool
  | finite .. => true
  | _ => false

end Binary64

end Wiring
