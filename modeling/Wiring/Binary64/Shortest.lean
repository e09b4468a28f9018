import Wiring.Binary64.Basic

/-! # Shortest decimal texts

A number is written with the fewest significant digits that still read back as it, and of the
decimals with that many digits with the nearest one. The numbers that read back form an interval
around the mantissa, held here in quarters of its last place; its ends count when the mantissa is
even. On the grid of multiples of a power of ten only the two neighbours of the number matter, so
the coarsest grid on which one of them lies in the interval gives the digits.
-/

namespace Wiring.Binary64

/-- The decimal on the grid `10 ^ place` that reads back as `mantissa * 2 ^ exponent`, if any. -/
def onGrid? (mantissa : Nat) (exponent place : Int) : Option Nat :=
  let scale := twoTo (exponent - 2) * tenTo (-place)
  let den := twoTo (2 - exponent) * tenTo place
  let value := 4 * mantissa * scale
  let narrow := mantissa = twoTo 52 ∧ exponent ≠ minExponent
  let least := (4 * mantissa - if narrow then 1 else 2) * scale
  let most := (4 * mantissa + 2) * scale
  let closed := mantissa % 2 = 0
  let below := value / den
  let above := below + 1
  let belowIn := least < below * den ∨ (closed ∧ least = below * den)
  let aboveIn := above * den < most ∨ (closed ∧ above * den = most)
  if belowIn ∧ aboveIn then
    let twice := 2 * (value % den)
    some (if twice < den then below else if den < twice then above else below + below % 2)
  else if belowIn then some below
  else if aboveIn then some above
  else none

/-- The first grid with a hit, from `place` down; `fuel` bounds how many grids are tried. -/
def descend (mantissa : Nat) (exponent : Int) : Nat → Int → Nat × Int
  | 0, place => (mantissa, place)
  | fuel + 1, place =>
    match onGrid? mantissa exponent place with
    | some digits => (digits, place)
    | none => descend mantissa exponent fuel (place - 1)

/-- The shortest decimal `digits * 10 ^ place` that reads back as `mantissa * 2 ^ exponent`. The
search starts above the number, and seventeen digits always suffice. -/
def shortest (mantissa : Nat) (exponent : Int) : Nat × Int :=
  let bits : Int := mantissa.log2 + 1 + exponent
  descend mantissa exponent 24 (bits * 30103 / 100000 + 2)

/-- Decimal digits laid out around a point that stands after the first `whole` of them; the
fraction has at least one digit. -/
def positional (digits : List Char) (whole : Int) : List Char :=
  if whole ≤ 0 then
    ['0', '.'] ++ List.replicate (-whole).toNat '0' ++ digits
  else
    let width := whole.toNat
    let fraction := digits.drop width
    digits.take width ++ List.replicate (width - digits.length) '0' ++ ['.'] ++
      (if fraction.isEmpty then ['0'] else fraction)

/-- Decimal digits in exponent form, the exponent with its sign and at least two digits. -/
def scientific (digits : List Char) (exponent : Int) : List Char :=
  let fraction := digits.drop 1
  let magnitude := Nat.toDigits 10 exponent.natAbs
  digits.take 1 ++ (if fraction.isEmpty then [] else '.' :: fraction) ++
    ['e', if exponent < 0 then '-' else '+'] ++
    List.replicate (2 - magnitude.length) '0' ++ magnitude

/-- The text of a positive finite number: positional when its decimal exponent is at least -4 and
below 16, and in exponent form otherwise. -/
def magnitudeText (mantissa : Nat) (exponent : Int) : List Char :=
  if mantissa = 0 then ['0', '.', '0']
  else
    let (digits, place) := shortest mantissa exponent
    let digits := Nat.toDigits 10 digits
    let leading : Int := place + digits.length - 1
    if -4 ≤ leading ∧ leading < 16 then positional digits (leading + 1)
    else scientific digits leading

/-- The text of a number, with the given words for infinity and for a NaN. -/
def textWith (infinity undefined : String) : Binary64 → String
  | finite negative mantissa exponent =>
    String.ofList ((if negative then ['-'] else []) ++ magnitudeText mantissa exponent)
  | infinite negative => (if negative then "-" else "") ++ infinity
  | nan => undefined

/-- The text of a number outside JSON. -/
def text : Binary64 → String := textWith "inf" "nan"

end Wiring.Binary64
